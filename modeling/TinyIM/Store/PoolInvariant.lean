import Mathlib.Data.List.Count
import Mathlib.Data.List.Perm.Basic
import Mathlib.Data.List.Nodup
import TinyIM.Library.Transition
import TinyIM.Store.DBPool

namespace TinyIM.Store.ConnectionPool

open Library.ByteOrder Library.Transition

namespace PoolConfig

variable (config : PoolConfig)

def hosts : Role → List Bytes
  | .master => [config.masterHost]
  | .slave => config.slaveHosts

def capacity : Role → ℤ
  | .master => max config.maxConns 2
  | .slave => max config.maxConns config.slaveHosts.length

theorem maxConns_le_capacity (role : Role) : config.maxConns ≤ config.capacity role := by
  cases role <;> exact le_max_left _ _

end PoolConfig

structure PoolInvariant (config : PoolConfig) (s : DBPool) : Prop where
  configured : s.toPoolConfig = config
  /-- Every pool counts its queued and its lent connections, -/
  count : ∀ role, (s.pools role).active =
    (s.pools role).queue.length + s.lent.countP fun lease ↦ lease.takenFrom = role
  bounded : ∀ role, (s.pools role).active ≤ config.capacity role
  /-- none of which is in two places, -/
  distinct : s.live.Nodup
  /-- is connected to hosts of its own, -/
  queued : ∀ role, ∀ conn ∈ (s.pools role).queue, conn.host ∈ config.hosts role
  lent : ∀ lease ∈ s.lent, lease.conn.host ∈ config.hosts lease.takenFrom
  /-- and gets its connections back. -/
  deleter : ∀ lease ∈ s.lent, lease.deleter = lease.takenFrom

namespace PoolInvariant

def other : Role → Role
  | .master => .slave
  | .slave => .master

theorem eq_or_eq_other (role role' : Role) : role' = role ∨ role' = other role := by
  cases role <;> cases role' <;> decide

theorem other_ne (role : Role) : other role ≠ role := by cases role <;> decide

variable {config : PoolConfig} {s : DBPool} {role : Role} {conn : Conn} {rest : List Conn}

/-- The pointers in use, seen from one of the pools. -/
theorem live_perm (s : DBPool) (role : Role) :
    s.live.Perm (((s.pools role).queue ++ ((s.pools (other role)).queue ++ s.lent.map Lease.conn)).map
      Conn.id) := by
  refine List.Perm.map Conn.id ?_
  cases role with
  | master => rw [List.append_assoc]; exact .refl _
  | slave =>
    rw [← List.append_assoc]
    exact List.perm_append_comm.append_right _

@[simp] theorem setPool_self (s : DBPool) (role : Role) (p : Pool) :
    (s.setPool role p).pools role = p := Function.update_self _ _ _

@[simp] theorem setPool_other (s : DBPool) (role : Role) (p : Pool) :
    (s.setPool role p).pools (other role) = s.pools (other role) :=
  Function.update_of_ne (other_ne role) _ _

@[simp] theorem setPool_lent (s : DBPool) (role : Role) (p : Pool) :
    (s.setPool role p).lent = s.lent := rfl

theorem notMem_live (s : DBPool) (role : Role) {id : ℕ} :
    id ∉ s.live ↔ id ∉ ((s.pools role).queue ++ ((s.pools (other role)).queue ++
      s.lent.map Lease.conn)).map Conn.id :=
  not_congr (live_perm s role).mem_iff

/-- A change of one pool and of the leases from it. -/
theorem of_change (h : PoolInvariant config s) (role : Role) {s' : DBPool}
    (hconfig : s'.toPoolConfig = s.toPoolConfig)
    (hother : s'.pools (other role) = s.pools (other role))
    (hcount : (s'.pools role).active =
      (s'.pools role).queue.length + s'.lent.countP fun lease ↦ lease.takenFrom = role)
    (hcountOther : s'.lent.countP (fun lease ↦ lease.takenFrom = other role) =
      s.lent.countP fun lease ↦ lease.takenFrom = other role)
    (hbounded : (s'.pools role).active ≤ config.capacity role)
    (hdistinct : (((s'.pools role).queue ++ ((s.pools (other role)).queue ++
      s'.lent.map Lease.conn)).map Conn.id).Nodup)
    (hqueued : ∀ conn ∈ (s'.pools role).queue, conn.host ∈ config.hosts role)
    (hlent : ∀ lease ∈ s'.lent, lease ∈ s.lent ∨ lease.takenFrom = role ∧ lease.deleter = role ∧
      lease.conn.host ∈ config.hosts role) : PoolInvariant config s' where
  configured := hconfig.trans h.configured
  count role' := by
    rcases eq_or_eq_other role role' with rfl | rfl
    · exact hcount
    · rw [hother, hcountOther, h.count]
  bounded role' := by
    rcases eq_or_eq_other role role' with rfl | rfl
    · exact hbounded
    · rw [hother]
      exact h.bounded _
  distinct := by
    rw [(live_perm s' role).nodup_iff, hother]
    exact hdistinct
  queued role' := by
    rcases eq_or_eq_other role role' with rfl | rfl
    · exact hqueued
    · rw [hother]
      exact h.queued _
  lent lease hlease := by
    rcases hlent lease hlease with hold | ⟨rfl, -, hhost⟩
    · exact h.lent lease hold
    · exact hhost
  deleter lease hlease := by
    rcases hlent lease hlease with hold | ⟨htaken, hdeleter, -⟩
    · exact h.deleter lease hold
    · rw [htaken, hdeleter]

theorem countP_lend (lent : List Lease) (lease : Lease) (role : Role) :
    (lent ++ [lease]).countP (fun lease ↦ lease.takenFrom = role) =
      lent.countP (fun lease ↦ lease.takenFrom = role) + if lease.takenFrom = role then 1 else 0 := by
  simp [List.countP_append, List.countP_singleton]

theorem mem_lend {lent : List Lease} {role : Role} {lease : Lease}
    (h : lease ∈ lent ++ [⟨conn, role, role⟩]) (hP : conn.host ∈ config.hosts role) :
    lease ∈ lent ∨ lease.takenFrom = role ∧ lease.deleter = role ∧
      lease.conn.host ∈ config.hosts role := by
  refine (List.mem_append.mp h).imp id fun heq ↦ ?_
  obtain rfl := List.mem_singleton.mp heq
  exact ⟨rfl, rfl, hP⟩

theorem lend (h : PoolInvariant config s) {queue : List Conn} {active : ℤ}
    (hcount : active = queue.length + s.lent.countP (fun lease ↦ lease.takenFrom = role) + 1)
    (hbounded : active ≤ config.capacity role)
    (hdistinct : (s.setPool role ⟨queue, active⟩).live.Nodup)
    (hqueued : queue ⊆ (s.pools role).queue)
    (hfresh : conn.id ∉ (s.setPool role ⟨queue, active⟩).live)
    (hhost : conn.host ∈ config.hosts role) :
    PoolInvariant config ((s.setPool role ⟨queue, active⟩).lend role role conn).1 := by
  refine h.of_change role rfl (setPool_other s role _) ?_ ?_ ?_ ?_ ?_ ?_
  · change ((s.setPool role _).pools role).active =
      ((s.setPool role _).pools role).queue.length + (s.lent ++ [_]).countP _
    rw [setPool_self, countP_lend, if_pos rfl, hcount]
    push_cast
    ring
  · change (s.lent ++ [_]).countP _ = _
    rw [countP_lend, if_neg (other_ne role).symm, add_zero]
  · change ((s.setPool role _).pools role).active ≤ _
    rwa [setPool_self]
  · rw [(live_perm _ role).nodup_iff, setPool_self, setPool_other] at hdistinct
    rw [notMem_live _ role, setPool_self, setPool_other] at hfresh
    change (((s.setPool role _).pools role).queue ++ (_ ++ (s.lent ++ [_]).map Lease.conn) |>.map
      Conn.id).Nodup
    rw [setPool_self, List.map_append (f := Lease.conn), ← List.append_assoc, ← List.append_assoc,
      List.map_append, List.append_assoc]
    exact hdistinct.append (List.nodup_singleton _) (List.disjoint_singleton.mpr hfresh)
  · change ∀ conn ∈ ((s.setPool role _).pools role).queue, _
    rw [setPool_self]
    exact fun conn hconn ↦ h.queued role conn (hqueued hconn)
  · exact fun lease hlease ↦ mem_lend hlease hhost

theorem popped (h : PoolInvariant config s) (hqueue : (s.pools role).queue = conn :: rest)
    (active : ℤ) : (s.setPool role ⟨rest, active⟩).live.Nodup ∧
      conn.id ∉ (s.setPool role ⟨rest, active⟩).live := by
  have hdistinct := h.distinct
  rw [(live_perm s role).nodup_iff, hqueue, List.cons_append, List.map_cons,
    List.nodup_cons] at hdistinct
  rw [(live_perm _ role).nodup_iff, notMem_live _ role, setPool_self, setPool_other]
  exact hdistinct.symm

/-- The front of the queue, or what replaces it, is lent. -/
theorem lendFront (h : PoolInvariant config s) {front : Conn}
    (hqueue : (s.pools role).queue = front :: rest)
    (hfresh : conn.id ∉ (s.setPool role ⟨rest, (s.pools role).active⟩).live)
    (hhost : conn.host ∈ config.hosts role) :
    PoolInvariant config
      ((s.setPool role ⟨rest, (s.pools role).active⟩).lend role role conn).1 := by
  refine h.lend ?_ (h.bounded role) (h.popped hqueue _).1 ?_ hfresh hhost
  · rw [h.count role, hqueue, List.length_cons]
    push_cast
    ring
  · rw [hqueue]
    exact List.subset_cons_self _ _

theorem dropFront (h : PoolInvariant config s) (hqueue : (s.pools role).queue = conn :: rest) :
    PoolInvariant config (s.setPool role ⟨rest, (s.pools role).active - 1⟩) := by
  refine h.of_change role rfl (setPool_other s role _) ?_ rfl ?_ ?_ ?_ fun _ ↦ .inl
  · rw [setPool_self, setPool_lent, h.count role, hqueue, List.length_cons]
    push_cast
    ring
  · rw [setPool_self]
    exact (sub_one_lt _).le.trans (h.bounded role)
  · have hdistinct := (h.popped hqueue ((s.pools role).active - 1)).1
    rwa [(live_perm _ role).nodup_iff, setPool_other] at hdistinct
  · rw [setPool_self]
    exact fun c hc ↦ h.queued role c (hqueue ▸ List.mem_cons_of_mem conn hc)

theorem enqueue (h : PoolInvariant config s) (hfresh : conn.id ∉ s.live)
    (hhost : conn.host ∈ config.hosts role)
    (hroom : (s.pools role).active + 1 ≤ config.capacity role) :
    PoolInvariant config
      (s.setPool role ⟨(s.pools role).queue ++ [conn], (s.pools role).active + 1⟩) := by
  refine h.of_change role rfl (setPool_other s role _) ?_ rfl ?_ ?_ ?_ fun _ ↦ .inl
  · rw [setPool_self, setPool_lent, h.count role, List.length_append, List.length_singleton]
    push_cast
    ring
  · rwa [setPool_self]
  · rw [setPool_self, setPool_lent, List.append_assoc, List.singleton_append,
      (List.perm_middle.map Conn.id).nodup_iff, List.map_cons, List.nodup_cons,
      ← (live_perm s role).nodup_iff]
    exact ⟨(notMem_live s role).mp hfresh, h.distinct⟩
  · rw [setPool_self]
    intro c hc
    rcases List.mem_append.mp hc with hc | hc
    · exact h.queued role c hc
    · obtain rfl := List.mem_singleton.mp hc
      exact hhost

theorem release (h : PoolInvariant config s) {i : ℕ} {s' : DBPool} (hs : s.release i = some s') :
    PoolInvariant config s' := by
  obtain ⟨lease, hlease, hs⟩ := Option.bind_eq_some_iff.mp hs
  split_ifs at hs
  obtain rfl := Option.some.inj hs
  obtain ⟨hi, rfl⟩ := List.getElem?_eq_some_iff.mp hlease
  have hmem : s.lent[i] ∈ s.lent := List.getElem_mem hi
  have hperm : (s.lent[i] :: s.lent.eraseIdx i).Perm s.lent := List.getElem_cons_eraseIdx_perm hi
  have hrole := h.deleter _ hmem
  have hcountP := fun role ↦ hperm.countP_eq fun lease ↦ decide (lease.takenFrom = role)
  simp only [List.countP_cons, decide_eq_true_eq] at hcountP
  refine h.of_change s.lent[i].deleter rfl (setPool_other _ _ _) ?_ ?_ ?_ ?_ ?_ ?_
  · rw [setPool_self, List.length_append, List.length_singleton]
    have hold := h.count s.lent[i].deleter
    rw [← hcountP, if_pos hrole.symm] at hold
    change (s.pools _).active = _ + ((s.lent.eraseIdx i).countP _ : ℤ)
    rw [hold]
    push_cast
    ring
  · change (s.lent.eraseIdx i).countP _ = _
    rw [← hcountP, if_neg fun heq ↦ other_ne _ (heq.symm.trans hrole.symm), add_zero]
  · rw [setPool_self]
    exact h.bounded _
  · rw [setPool_self, List.append_assoc, List.singleton_append]
    change ((_ ++ s.lent[i].conn :: (_ ++ (s.lent.eraseIdx i).map Lease.conn)).map Conn.id).Nodup
    have hmoved : ((s.pools s.lent[i].deleter).queue ++ s.lent[i].conn ::
        ((s.pools (other s.lent[i].deleter)).queue ++ (s.lent.eraseIdx i).map Lease.conn)).Perm
        ((s.pools s.lent[i].deleter).queue ++
          ((s.pools (other s.lent[i].deleter)).queue ++ s.lent.map Lease.conn)) := by
      refine List.Perm.append_left _ (List.perm_middle.symm.trans ?_)
      exact (hperm.map Lease.conn).append_left _
    rw [(hmoved.map Conn.id).nodup_iff, ← (live_perm s _).nodup_iff]
    exact h.distinct
  · rw [setPool_self]
    intro c hc
    rcases List.mem_append.mp hc with hc | hc
    · exact h.queued _ c hc
    · obtain rfl := List.mem_singleton.mp hc
      exact hrole ▸ h.lent _ hmem
  · exact fun l hl ↦ .inl (List.mem_of_mem_eraseIdx hl)

theorem returned (h : PoolInvariant config s) {i : ℕ} {lease : Lease} {s' : DBPool}
    (hlease : s.lent[i]? = some lease) (hs : s.release i = some s') :
    (s'.pools lease.takenFrom).queue = (s.pools lease.takenFrom).queue ++ [lease.conn] := by
  rw [DBPool.release, hlease, Option.bind_some] at hs
  split_ifs at hs
  obtain rfl := Option.some.inj hs
  rw [← h.deleter lease (List.mem_of_getElem? hlease)]
  exact congrArg Pool.queue (setPool_self _ _ _)

/-- Nothing but the mutex of its pool keeps a connection from being released. -/
theorem releasable (h : PoolInvariant config s) {i : ℕ} {lease : Lease}
    (hlease : s.lent[i]? = some lease) (hfree : lease.takenFrom = .slave → s.slaveFree) :
    ∃ s', s.release i = some s' ∧ s'.lent = s.lent.eraseIdx i := by
  have hopen : ¬ (lease.deleter = .slave ∧ ¬ s.slaveFree) := by
    rintro ⟨hslave, hlocked⟩
    rw [h.deleter lease (List.mem_of_getElem? hlease)] at hslave
    exact hlocked (hfree hslave)
  rw [DBPool.release, hlease, Option.bind_some, if_neg hopen]
  exact ⟨_, rfl, rfl⟩

theorem ofWaiting (h : PoolInvariant config s) (waiting : List Waiting) :
    PoolInvariant config { s with waiting } :=
  ⟨h.configured, h.count, h.bounded, h.distinct, h.queued, h.lent, h.deleter⟩

section calls

variable {r : DBPool × Reply} {o : Outcomes} {host : Bytes}

theorem createConnection_eq {id : ℕ} (h : s.createConnection host id = some conn) :
    conn.id ∉ s.live ∧ conn.host = host := by
  rw [DBPool.createConnection] at h
  split_ifs at h with hlive
  obtain rfl := Option.some.inj h
  exact ⟨hlive, rfl⟩

theorem takeFront (h : PoolInvariant config s) (hhost : host ∈ config.hosts role)
    (hr : s.takeFront role role host o = some r) : PoolInvariant config r.1 := by
  rw [DBPool.takeFront] at hr
  split at hr
  · cases hr
  next front rest hqueue =>
  simp only [] at hr
  split_ifs at hr
  · obtain rfl := Option.some.inj hr
    refine h.lendFront hqueue (h.popped hqueue _).2 (h.queued role front ?_)
    exact hqueue ▸ List.mem_cons_self
  split at hr
  · obtain ⟨conn, hconn, rfl⟩ := Option.map_eq_some_iff.mp hr
    obtain ⟨hfresh, rfl⟩ := createConnection_eq hconn
    exact h.lendFront hqueue hfresh hhost
  · obtain rfl := Option.some.inj hr
    have hdropped : (s.setPool role ⟨rest, (s.pools role).active⟩).setPool role
        ⟨rest, (s.pools role).active - 1⟩ = s.setPool role ⟨rest, (s.pools role).active - 1⟩ := by
      simp [DBPool.setPool]
    simp only [setPool_self]
    exact hdropped ▸ h.dropFront hqueue

theorem acquire (h : PoolInvariant config s) {reconnectHost : Bytes} {wait : Waiting}
    (hhost : host ∈ config.hosts role) (hreconnect : reconnectHost ∈ config.hosts role)
    (hr : s.acquire role role host reconnectHost o wait = some r) : PoolInvariant config r.1 := by
  rw [DBPool.acquire] at hr
  simp only [] at hr
  split_ifs at hr with hqueue hroom
  · split at hr
    · obtain ⟨conn, hconn, rfl⟩ := Option.map_eq_some_iff.mp hr
      obtain ⟨hfresh, rfl⟩ := createConnection_eq hconn
      have hmax : s.maxConns ≤ config.capacity role := h.configured ▸ PoolConfig.maxConns_le_capacity _ role
      have hlive : ∀ active, (s.setPool role ⟨(s.pools role).queue, active⟩).live.Perm s.live := by
        intro active
        refine (live_perm _ role).trans ?_
        rw [setPool_self, setPool_other]
        exact (live_perm s role).symm
      refine h.lend (by rw [h.count role]) (by omega) ((hlive _).nodup_iff.mpr h.distinct)
        (List.Subset.refl _) (fun hmem ↦ hfresh ((hlive _).mem_iff.mp hmem)) hhost
    · obtain rfl := Option.some.inj hr
      exact h.ofWaiting _
  · obtain rfl := Option.some.inj hr
    exact h.ofWaiting _
  · exact h.takeFront hreconnect hr

theorem getWriteConnection (h : PoolInvariant config s) {holdsSlave : Bool}
    (hr : s.getWriteConnection o holdsSlave = some r) : PoolInvariant config r.1 := by
  have hmaster : s.masterHost ∈ config.hosts .master := h.configured ▸ List.mem_singleton_self _
  exact h.acquire hmaster hmaster hr

theorem mem_slaveHosts (h : PoolInvariant config s) {i : ℕ} (hi : s.slaveHosts[i]? = some host) :
    host ∈ config.hosts .slave := by
  have hmem := List.mem_of_getElem? hi
  exact h.configured ▸ hmem

theorem getReadConnection (h : PoolInvariant config s) (hr : s.getReadConnection o = some r) :
    PoolInvariant config r.1 := by
  rw [DBPool.getReadConnection] at hr
  split_ifs at hr
  · exact h.getWriteConnection hr
  · obtain ⟨host, hhost, hr⟩ := Option.bind_eq_some_iff.mp hr
    obtain ⟨reconnectHost, hreconnect, hr⟩ := Option.bind_eq_some_iff.mp hr
    exact h.acquire (h.mem_slaveHosts hhost) (h.mem_slaveHosts hreconnect) hr

theorem wake (h : PoolInvariant config s) {i : ℕ} (hr : s.wake i o = some r) :
    PoolInvariant config r.1 := by
  have hstopped : PoolInvariant config (s.stopWaiting i) := h.ofWaiting _
  rw [DBPool.wake] at hr
  split at hr
  · exact hstopped.takeFront (h.configured ▸ List.mem_singleton_self _) hr
  · split_ifs at hr
    obtain ⟨host, hhost, hr⟩ := Option.bind_eq_some_iff.mp hr
    exact hstopped.takeFront (h.mem_slaveHosts hhost) hr
  · cases hr

theorem timeout (h : PoolInvariant config s) {i : ℕ} (hr : s.timeout i o = some r) :
    PoolInvariant config r.1 := by
  have hstopped : PoolInvariant config (s.stopWaiting i) := h.ofWaiting _
  rw [DBPool.timeout] at hr
  split at hr
  · split_ifs at hr
    obtain rfl := Option.some.inj hr
    exact hstopped
  · split_ifs at hr
    exact hstopped.getWriteConnection hr
  · cases hr

theorem step (h : PoolInvariant config s) {a : DBPool.Action} {s' : DBPool} (hs : s.step a = some s') :
    PoolInvariant config s' := by
  cases a with
  | getWrite o =>
    obtain ⟨r, hr, rfl⟩ := Option.map_eq_some_iff.mp hs
    exact h.getWriteConnection hr
  | getRead o =>
    obtain ⟨r, hr, rfl⟩ := Option.map_eq_some_iff.mp hs
    exact h.getReadConnection hr
  | wake i o =>
    obtain ⟨r, hr, rfl⟩ := Option.map_eq_some_iff.mp hs
    exact h.wake hr
  | timeout i o =>
    obtain ⟨r, hr, rfl⟩ := Option.map_eq_some_iff.mp hs
    exact h.timeout hr
  | release i => exact h.release hs

end calls

section init

/-- `Init` keeps the invariant as long as there is room for its attempts. -/
theorem preCreateAll (h : PoolInvariant config s) {attempts : List (Bytes × Option ℕ)}
    {s' : DBPool} (hhosts : ∀ x ∈ attempts, x.1 ∈ config.hosts role)
    (hroom : (s.pools role).active + attempts.length ≤ config.capacity role)
    (hs : DBPool.preCreateAll role s attempts = some s') :
    PoolInvariant config s' ∧ ∀ role', role' ≠ role → s'.pools role' = s.pools role' := by
  induction attempts generalizing s with
  | nil =>
    obtain rfl := Option.some.inj hs
    exact ⟨h, fun _ _ ↦ rfl⟩
  | cons attempt attempts ih =>
    obtain ⟨host, id⟩ := attempt
    obtain ⟨s₁, hs₁, hs₂⟩ := Option.bind_eq_some_iff.mp hs
    have hrest : ∀ x ∈ attempts, x.1 ∈ config.hosts role := fun x hx ↦
      hhosts x (List.mem_cons_of_mem _ hx)
    rw [List.length_cons, Nat.cast_succ] at hroom
    cases id with
    | none =>
      obtain rfl := Option.some.inj hs₁
      exact ih h hrest (by omega) hs₂
    | some id =>
      obtain ⟨conn, hconn, rfl⟩ := Option.map_eq_some_iff.mp hs₁
      obtain ⟨hfresh, rfl⟩ := createConnection_eq hconn
      have hnext := h.enqueue hfresh (hhosts _ List.mem_cons_self) (by omega)
      obtain ⟨hinv, hpools⟩ := ih hnext hrest (by simp only [setPool_self]; omega) hs₂
      refine ⟨hinv, fun role' hne ↦ (hpools role' hne).trans ?_⟩
      exact Function.update_of_ne hne _ _

theorem init {first second : Option ℕ} {connects : ℕ → Option ℕ}
    (hs : DBPool.init config first second connects = some s) : PoolInvariant config s := by
  obtain ⟨s₁, hs₁, hs⟩ := Option.bind_eq_some_iff.mp hs
  have hempty : PoolInvariant config ⟨config, fun _ ↦ {}, [], []⟩ := by
    refine ⟨rfl, fun _ ↦ rfl, fun role ↦ ?_, List.nodup_nil, fun _ _ ↦ nofun, nofun, nofun⟩
    cases role with
    | master => exact le_max_of_le_right zero_le_two
    | slave => exact le_max_of_le_right (Int.natCast_nonneg _)
  have hmaster : ∀ x ∈ [(config.masterHost, first), (config.masterHost, second)],
      x.1 ∈ config.hosts .master := by
    simp [PoolConfig.hosts]
  obtain ⟨hinv, hpools⟩ := hempty.preCreateAll hmaster (le_max_right _ _) hs₁
  refine (hinv.preCreateAll ?_ ?_ hs).1
  · intro x hx
    obtain ⟨y, hy, rfl⟩ := List.mem_map.mp hx
    exact (List.mem_zipIdx' hy).2 ▸ List.getElem_mem _
  · rw [hpools .slave (by decide), List.length_map, List.length_zipIdx]
    exact (zero_add _).le.trans (le_max_right _ _)

end init

end PoolInvariant

/-- With what follows for the release of a connection: it is possible as soon as
the mutex of the pool is free, and gives the connection back. -/
structure PoolsSound (config : PoolConfig) (s : DBPool) : Prop extends PoolInvariant config s where
  releasable : ∀ i lease, s.lent[i]? = some lease → (lease.takenFrom = .slave → s.slaveFree) →
    ∃ s', s.release i = some s' ∧ s'.lent = s.lent.eraseIdx i
  returned : ∀ i lease s', s.lent[i]? = some lease → s.release i = some s' →
    (s'.pools lease.takenFrom).queue = (s.pools lease.takenFrom).queue ++ [lease.conn]

/-- The pools after `Init`, whatever the threads, the hosts and the waits do. -/
theorem pools_sound {config : PoolConfig} {first second : Option ℕ} {connects : ℕ → Option ℕ}
    {s s' : DBPool} (hinit : DBPool.init config first second connects = some s)
    (h : Reach DBPool.step anyStep s s') : PoolsSound config s' := by
  have hinv : PoolInvariant config s' :=
    h.invariant (fun _ _ _ _ hs hi ↦ hi.step hs) (PoolInvariant.init hinit)
  exact ⟨hinv, fun _ _ ↦ hinv.releasable, fun _ _ _ ↦ hinv.returned⟩

/-- One master and one slave, whose connection is lent when a second read waits
and falls back to the master. -/
def oneSlave : PoolConfig := ⟨[1], [[2]], 1⟩

def fallback : List DBPool.Action :=
  [.getRead {}, .getRead {}, .timeout 0 {}, .release 1, .release 0]

theorem pools_sound_fallback : ∃ s₀ s,
    DBPool.init oneSlave (some 0) (some 1) (fun _ ↦ some 2) = some s₀ ∧
    Run DBPool.step anyStep s₀ fallback s ∧ PoolsSound oneSlave s ∧
    (s.pools .master).queue.map Conn.id = [1, 0] ∧ (s.pools .slave).queue.map Conn.id = [2] := by
  obtain ⟨s₀, hs₀⟩ : ∃ s, DBPool.init oneSlave (some 0) (some 1) (fun _ ↦ some 2) = some s :=
    ⟨_, rfl⟩
  obtain ⟨s, hexec, hs⟩ : ∃ s, exec DBPool.step anyStep s₀ fallback = some s ∧
      (s.pools .master).queue.map Conn.id = [1, 0] ∧
      (s.pools .slave).queue.map Conn.id = [2] := by
    obtain rfl := Option.some.inj (hs₀.symm.trans rfl)
    exact ⟨_, rfl, rfl, rfl⟩
  have hrun := run_of_exec fallback hexec
  exact ⟨s₀, s, hs₀, hrun, pools_sound hs₀ hrun.reach, hs⟩

end TinyIM.Store.ConnectionPool

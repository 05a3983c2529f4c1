import TinyIM.Store.PoolInvariant

namespace TinyIM.Store.ConnectionPool.ReadFallback

open Library.ByteOrder

variable (s : DBPool)

/-- A `GetWriteConnection` with these outcomes gives a connection at once. -/
def Supplies (m : Outcomes) : Prop :=
  ∃ s' lease, s.getWriteConnection m false = some (s', .returns (some lease))

/-- What a `GetReadConnection` does last at the slaves, with the outcomes `o`
there and `m` at the master. -/
inductive ReadEnds (o m : Outcomes) : Reply → Prop
  | atOnce {s' lease} (h : s.getReadConnection o = some (s', .returns lease)) : ReadEnds o m (.returns lease)
  | woken {i s' r} (hi : s.waiting[i]? = some .read) (h : s.wake i o = some (s', r)) : ReadEnds o m r
  | timeout {i s' r} (hi : s.waiting[i]? = some .read) (h : s.timeout i m = some (s', r)) : ReadEnds o m r

/-- The slave connection in front is dead, and no other can be made. -/
def LosesSlave (o : Outcomes) : Prop :=
  (s.pools .slave).queue ≠ [] ∧ o.ping = false ∧ o.reconnect = none

/-- The call has got a connection. -/
def Lends (r : Reply) : Prop := ∃ lease, r = .returns (some lease)

variable {s} {o m : Outcomes} {r : Reply}

theorem takeFront_reply {role deleter : Role} {host : Bytes} {s' : DBPool}
    (h : s.takeFront role deleter host o = some (s', r)) :
    (s.pools role).queue ≠ [] ∧
      (Lends r ↔ ¬ (o.ping = false ∧ o.reconnect = none)) := by
  rw [DBPool.takeFront] at h
  split at h
  · cases h
  next front rest hqueue =>
  refine ⟨hqueue ▸ List.cons_ne_nil front rest, ?_⟩
  simp only [] at h
  split_ifs at h with hping
  · obtain rfl := (Prod.mk.inj (Option.some.inj h)).2
    exact iff_of_true ⟨_, rfl⟩ fun hlost ↦ absurd (hping.symm.trans hlost.1) (by decide)
  split at h
  · next id hid =>
    obtain ⟨conn, -, heq⟩ := Option.map_eq_some_iff.mp h
    obtain rfl := (Prod.mk.inj heq).2
    refine iff_of_true ⟨_, rfl⟩ fun hlost ↦ ?_
    cases hid.symm.trans hlost.2
  · next hnone =>
    obtain rfl := (Prod.mk.inj (Option.some.inj h)).2
    refine iff_of_false ?_ (not_not_intro ⟨Bool.eq_false_iff.mpr hping, hnone⟩)
    rintro ⟨lease, heq⟩
    cases heq

/-- A connection can be made: there is room, and the host is reachable. -/
def CanConnect (s : DBPool) (role : Role) (o : Outcomes) : Prop :=
  (s.pools role).active < s.maxConns ∧ o.connect ≠ none

theorem acquire_cases {role deleter : Role} {host reconnectHost : Bytes} {wait : Waiting} {s' : DBPool}
    (h : s.acquire role deleter host reconnectHost o wait = some (s', r)) :
    ((s.pools role).queue = [] ∧ CanConnect s role o ∧ Lends r) ∨
    ((s.pools role).queue = [] ∧ ¬ CanConnect s role o ∧ r = .waits) ∨
    ((s.pools role).queue ≠ [] ∧ (Lends r ↔ ¬ (o.ping = false ∧ o.reconnect = none))) := by
  rw [DBPool.acquire] at h
  simp only [] at h
  split_ifs at h with hqueue hroom
  · split at h
    · next id hid =>
      obtain ⟨conn, -, heq⟩ := Option.map_eq_some_iff.mp h
      obtain rfl := (Prod.mk.inj heq).2
      exact .inl ⟨hqueue, ⟨hroom, hid ▸ Option.some_ne_none id⟩, _, rfl⟩
    · next hnone =>
      obtain rfl := (Prod.mk.inj (Option.some.inj h)).2
      exact .inr (.inl ⟨hqueue, fun hcan ↦ hcan.2 hnone, rfl⟩)
  · obtain rfl := (Prod.mk.inj (Option.some.inj h)).2
    exact .inr (.inl ⟨hqueue, fun hcan ↦ hroom hcan.1, rfl⟩)
  · exact .inr (.inr (takeFront_reply h))

/-- Where the master supplies a connection, a read that falls back gets one. -/
theorem fallback_lends {i : ℕ} {s' : DBPool} (hsupplies : Supplies s m)
    (h : (s.stopWaiting i).getWriteConnection m true = some (s', r)) : Lends r := by
  obtain ⟨_, lease, hsupplied⟩ := hsupplies
  have hlends : Lends (.returns (some lease)) := ⟨lease, rfl⟩
  obtain ⟨hqueue, hcan, -⟩ | ⟨-, -, hwaits⟩ | ⟨hqueue, hiff⟩ := acquire_cases hsupplied
  · obtain ⟨-, -, h⟩ | ⟨-, hnot, -⟩ | ⟨hne, -⟩ := acquire_cases h
    · exact h
    · exact absurd hcan hnot
    · exact absurd hqueue hne
  · cases hwaits
  · obtain ⟨hempty, -⟩ | ⟨hempty, -⟩ | ⟨-, hiff'⟩ := acquire_cases h
    · exact absurd hempty hqueue
    · exact absurd hempty hqueue
    · exact hiff'.mpr (hiff.mp hlends)

/-- A read gets a connection whenever the master could supply one, except where
it has lost its slave. -/
theorem readEnds_lends_iff (hslaves : s.slaveHosts ≠ []) (hsupplies : Supplies s m) (h : ReadEnds s o m r) :
    Lends r ↔ ¬ LosesSlave s o := by
  cases h with
  | @atOnce s' lease h =>
    rw [DBPool.getReadConnection, if_neg hslaves] at h
    split_ifs at h
    obtain ⟨host, -, h⟩ := Option.bind_eq_some_iff.mp h
    obtain ⟨reconnectHost, -, h⟩ := Option.bind_eq_some_iff.mp h
    obtain ⟨hqueue, -, hlends⟩ | ⟨-, -, hwaits⟩ | ⟨hqueue, hiff⟩ := acquire_cases h
    · exact iff_of_true hlends fun hlost ↦ hlost.1 hqueue
    · cases hwaits
    · exact hiff.trans (not_congr (and_iff_right hqueue).symm)
  | @woken i s' _ hi h =>
    rw [DBPool.wake, hi] at h
    dsimp only at h
    split_ifs at h
    obtain ⟨host, -, h⟩ := Option.bind_eq_some_iff.mp h
    obtain ⟨hqueue, hiff⟩ := takeFront_reply h
    exact hiff.trans (not_congr (and_iff_right hqueue).symm)
  | @timeout i s' _ hi h =>
    rw [DBPool.timeout, hi] at h
    dsimp only at h
    split_ifs at h with hempty
    exact iff_of_true (fallback_lends hsupplies h) fun hlost ↦ hlost.1 hempty.2

/-- A read that waits comes to an end. -/
theorem waiting_read_ends {i : ℕ} (hi : s.waiting[i]? = some .read) (hfree : s.slaveFree)
    (hslaves : s.slaveHosts ≠ []) : ∃ o m r, ReadEnds s o m r := by
  obtain ⟨host, hosts, hhosts⟩ := List.exists_cons_of_ne_nil hslaves
  cases hqueue : (s.pools .slave).queue with
  | nil =>
    obtain ⟨⟨s', r⟩, hr⟩ : ∃ x, (s.stopWaiting i).getWriteConnection {} true = some x := by
      rw [DBPool.getWriteConnection, DBPool.acquire, DBPool.takeFront]
      simp only []
      split_ifs with hempty
      · exact ⟨_, rfl⟩
      · exact ⟨_, rfl⟩
      · split
        · next hnil => exact absurd hnil hempty
        · exact ⟨_, rfl⟩
    have hend : s.timeout i {} = some (s', r) := by
      rw [DBPool.timeout, hi]
      exact (if_pos ⟨hfree, hqueue⟩).trans hr
    exact ⟨{}, {}, r, .timeout hi hend⟩
  | cons conn rest =>
    obtain ⟨⟨s', r⟩, hr⟩ : ∃ x, (s.stopWaiting i).takeFront .slave .slave host {} = some x := by
      rw [DBPool.takeFront]
      split
      · next hnil => exact absurd (hqueue.symm.trans hnil) (List.cons_ne_nil conn rest)
      · exact ⟨_, rfl⟩
    have hend : s.wake i {} = some (s', r) := by
      rw [DBPool.wake, hi]
      refine (if_pos hfree).trans ?_
      rw [hhosts]
      exact hr
    exact ⟨{}, {}, r, .woken hi hend⟩

/-- One master and one slave after `Init`, where each host was reachable. -/
def initialised : DBPool := (DBPool.init oneSlave (some 0) (some 1) fun _ ↦ some 2).get rfl

/-- The slave has gone, but its host can be reached again. -/
theorem readEnds_lends_reconnected : ∃ r, ReadEnds initialised { ping := false, reconnect := some 3 } {} r ∧
    Supplies initialised {} ∧ Lends r := by
  have hends : ReadEnds initialised { ping := false, reconnect := some 3 } {} _ := .atOnce rfl
  have hsupplies : Supplies initialised {} := ⟨_, _, rfl⟩
  have hslaves : initialised.slaveHosts ≠ [] := List.cons_ne_nil _ _
  refine ⟨_, hends, hsupplies, (readEnds_lends_iff hslaves hsupplies hends).mpr fun hlost ↦ ?_⟩
  cases hlost.2.2

/-- The master is there, but the read that has lost its slave does not ask it. -/
theorem not_readEnds_lends :
    ¬ ∀ s o m r, s.slaveHosts ≠ [] → Supplies s m → ReadEnds s o m r → Lends r := by
  intro h
  obtain ⟨lease, hlease⟩ := h initialised { ping := false } {} _ (List.cons_ne_nil _ _) ⟨_, _, rfl⟩ (.atOnce rfl)
  cases hlease

end TinyIM.Store.ConnectionPool.ReadFallback

import Mathlib.Data.List.Perm.Basic
import Mathlib.Data.List.Range
import TinyIM.Library.Interleaving
import TinyIM.Store.RedisClient

namespace TinyIM.Store.RedisPool

open Library.ByteOrder Library.Transition Library.Program Library.Interleaving Protocol RedisClient

/-- `pool_`, the number of contexts that `redisConnect` has made, and which of
them have `err` set. -/
structure World where
  pool : List ℕ
  created : ℕ
  err : ℕ → Bool

namespace World

def empty : World := ⟨[], 0, fun _ ↦ false⟩

variable (w : World)

/-- What Redis does for one command: whether a connection is accepted, and
what is replied, if anything. -/
structure Outcome where
  accepted : Bool := true
  reply : Option Reply := none

def exec (e : Outcome) : (c : Command) → World × Answer c
  | .popBack => ({ w with pool := w.pool.dropLast }, w.pool.getLast?)
  | .redisConnect =>
    if e.accepted then ({ w with created := w.created + 1 }, some w.created) else (w, none)
  | .redisCommand ctx _ =>
    if w.err ctx then (w, none)
    else
      match e.reply with
      | some reply => (w, some reply)
      | none => ({ w with err := Function.update w.err ctx true }, none)
  | .pushBack ctx => ({ w with pool := w.pool ++ [ctx] }, ())

end World

open World

abbrev Threads := Pool Command Answer Unit (List ℕ) World

def system : System Command Answer Unit (List ℕ) World Use Outcome Empty where
  contract := borrowing
  fresh := []
  start := Use.program
  exec _ e w := w.exec e
  outside o _ := o.elim

def start : Threads := ⟨.empty, []⟩

/-- Each context is in `pool_` once or held by one `RedisConn`. -/
def Owned (p : Threads) : Prop :=
  (p.world.pool ++ p.accounts.flatten).Perm (List.range p.world.created)

/-- No dead context is in `pool_`. -/
def Clean (w : World) : Prop := ∀ ctx ∈ w.pool, w.err ctx = false

/-- No `RedisConn` is destroyed on whose context a `redisCommand` has failed. -/
def Spared (p : Threads) : Action Use Outcome Empty → Prop
  | .step i _ => ∀ ctx, p.command i = some (.pushBack ctx) → p.world.err ctx = false
  | _ => True

/-- No `redisCommand` fails. -/
def Answered (p : Threads) : Action Use Outcome Empty → Prop
  | .step i e => ∀ ctx args, p.command i = some (.redisCommand ctx args) → e.reply ≠ none
  | _ => True

theorem flatten_set_perm {α : Type} {l : List (List α)} {i : ℕ} {x : List α} (h : l[i]? = some x) :
    ∃ rest, l.flatten.Perm (x ++ rest) ∧ ∀ y, (l.set i y).flatten.Perm (y ++ rest) := by
  induction l generalizing i with
  | nil => cases h
  | cons a l ih =>
    cases i with
    | zero =>
      obtain rfl := Option.some.inj h
      exact ⟨l.flatten, .refl _, fun _ ↦ .refl _⟩
    | succ i =>
      obtain ⟨rest, hperm, hset⟩ := ih h
      refine ⟨a ++ rest, ?_, ?_⟩
      · exact (hperm.append_left a).trans (List.perm_append_comm_assoc ..)
      · intro y
        exact ((hset y).append_left a).trans (List.perm_append_comm_assoc ..)

section Ownership

/-- The ownership, and that only contexts that exist have `err` set. -/
structure Sound (w : World) (accounts : List (List ℕ)) : Prop where
  owned : (w.pool ++ accounts.flatten).Perm (List.range w.created)
  exist : ∀ ctx, w.err ctx = true → ctx < w.created

variable {w : World} {accounts : List (List ℕ)} {i : ℕ} {mine : List ℕ}

theorem dropLast_append_toList {α : Type} (l : List α) : l.dropLast ++ l.getLast?.toList = l := by
  cases hl : l.getLast? with
  | none =>
    obtain rfl := List.getLast?_eq_none_iff.mp hl
    rfl
  | some a => exact List.dropLast_append_getLast? a hl

theorem Sound.popBack (h : Sound w accounts) (hi : accounts[i]? = some mine) (e : Outcome) :
    Sound (w.exec e .popBack).1 (accounts.set i (borrowing.after mine .popBack (w.exec e .popBack).2)) := by
  obtain ⟨rest, hperm, hset⟩ := flatten_set_perm hi
  refine ⟨List.Perm.trans ?_ h.owned, h.exist⟩
  change (w.pool.dropLast ++ (accounts.set i (w.pool.getLast?.toList ++ mine)).flatten).Perm _
  refine ((hset _).append_left _).trans ?_
  rw [List.append_assoc, ← List.append_assoc, dropLast_append_toList]
  exact hperm.symm.append_left _

theorem Sound.redisConnect (h : Sound w accounts) (hi : accounts[i]? = some mine) (e : Outcome) :
    Sound (w.exec e .redisConnect).1
      (accounts.set i (borrowing.after mine .redisConnect (w.exec e .redisConnect).2)) := by
  rw [World.exec]
  split_ifs with haccepted
  · obtain ⟨rest, hperm, hset⟩ := flatten_set_perm hi
    refine ⟨?_, fun ctx hctx ↦ Nat.lt_succ_of_lt (h.exist ctx hctx)⟩
    change (w.pool ++ (accounts.set i (w.created :: mine)).flatten).Perm (List.range (w.created + 1))
    rw [List.range_succ]
    refine ((hset _).append_left _).trans (List.perm_middle.trans ?_)
    refine List.Perm.trans ?_ List.perm_append_comm
    exact ((hperm.symm.append_left _).trans h.owned).cons _
  · exact (set_of_getElem? hi).symm ▸ h

theorem Sound.redisCommand (h : Sound w accounts) (hi : accounts[i]? = some mine) (e : Outcome)
    {ctx : ℕ} (args : List Bytes) (hctx : ctx ∈ mine) :
    Sound (w.exec e (.redisCommand ctx args)).1
      (accounts.set i (borrowing.after mine (.redisCommand ctx args) (w.exec e (.redisCommand ctx args)).2)) := by
  change Sound _ (accounts.set i mine)
  rw [set_of_getElem? hi, World.exec]
  split_ifs with herr
  · exact h
  · split
    · exact h
    · refine ⟨h.owned, ?_⟩
      intro ctx' hctx'
      by_cases heq : ctx' = ctx
      · subst heq
        have hheld : ctx' ∈ accounts.flatten :=
          List.mem_flatten.mpr ⟨mine, List.mem_of_getElem? hi, hctx⟩
        exact List.mem_range.mp (h.owned.mem_iff.mp (List.mem_append_right _ hheld))
      · change Function.update w.err ctx true ctx' = true at hctx'
        rw [Function.update_of_ne heq] at hctx'
        exact h.exist ctx' hctx'

theorem Sound.pushBack (h : Sound w accounts) (hi : accounts[i]? = some mine) (e : Outcome)
    {ctx : ℕ} (hctx : ctx ∈ mine) :
    Sound (w.exec e (.pushBack ctx)).1
      (accounts.set i (borrowing.after mine (.pushBack ctx) (w.exec e (.pushBack ctx)).2)) := by
  obtain ⟨rest, hperm, hset⟩ := flatten_set_perm hi
  refine ⟨List.Perm.trans ?_ h.owned, h.exist⟩
  change (w.pool ++ [ctx] ++ (accounts.set i (mine.erase ctx)).flatten).Perm _
  refine ((hset _).append_left _).trans ?_
  rw [List.append_assoc, List.singleton_append, ← List.cons_append]
  exact (((List.perm_cons_erase hctx).append_right rest).symm.trans hperm.symm).append_left _

theorem Sound.exec (h : Sound w accounts) (hi : accounts[i]? = some mine) (e : Outcome) {c : Command}
    (hmay : borrowing.may mine c) :
    Sound (w.exec e c).1 (accounts.set i (borrowing.after mine c (w.exec e c).2)) := by
  cases c with
  | popBack => exact h.popBack hi e
  | redisConnect => exact h.redisConnect hi e
  | redisCommand ctx args => exact h.redisCommand hi e args hmay
  | pushBack ctx => exact h.pushBack hi e hmay

theorem Sound.spawn (h : Sound w accounts) : Sound w (accounts ++ [[]]) := by
  refine ⟨?_, h.exist⟩
  have hnone : (accounts ++ [[]]).flatten = accounts.flatten := by
    rw [List.flatten_append]
    exact List.append_nil _
  exact hnone.symm ▸ h.owned

/-- A context that is held is not in `pool_`. -/
theorem Sound.notMem_pool (h : Sound w accounts) (hi : accounts[i]? = some mine) {ctx : ℕ}
    (hctx : ctx ∈ mine) : ctx ∉ w.pool := by
  have hnodup := h.owned.nodup_iff.mpr List.nodup_range
  have hheld : ctx ∈ accounts.flatten := List.mem_flatten.mpr ⟨mine, List.mem_of_getElem? hi, hctx⟩
  exact fun hpool ↦ (List.disjoint_of_nodup_append hnodup) hpool hheld

theorem Sound.exec_clean (h : Sound w accounts) (hi : accounts[i]? = some mine) {e : Outcome}
    {c : Command} (hmay : borrowing.may mine c) (hclean : Clean w)
    (hspared : ∀ ctx, c = .pushBack ctx → w.err ctx = false) : Clean (w.exec e c).1 := by
  cases c with
  | popBack => exact fun ctx hctx ↦ hclean ctx (List.mem_of_mem_dropLast hctx)
  | redisConnect =>
    rw [World.exec]
    split_ifs <;> exact hclean
  | redisCommand ctx args =>
    rw [World.exec]
    split_ifs
    · exact hclean
    · split
      · exact hclean
      · intro ctx' hctx'
        have hne : ctx' ≠ ctx := fun heq ↦ h.notMem_pool hi hmay (heq ▸ hctx')
        exact (Function.update_of_ne hne _ _).trans (hclean ctx' hctx')
  | pushBack ctx =>
    intro ctx' hctx'
    rcases List.mem_append.mp hctx' with hold | hnew
    · exact hclean ctx' hold
    · exact List.mem_singleton.mp hnew ▸ hspared ctx rfl

variable {p : Threads}

theorem use_lawful (r : Use) : Meets system.contract (fun _ _ ↦ True) system.fresh (system.start r) :=
  (r.restores []).mono fun _ _ _ ↦ trivial

theorem sound_start : Sound .empty [] := ⟨.refl _, fun _ herr ↦ absurd herr Bool.false_ne_true⟩

theorem sound_of_reach {ok : Threads → Action Use Outcome Empty → Prop}
    (h : Reach system.next ok start p) : Sound p.world p.accounts := by
  refine (System.invariant (S := system) (J := Sound) use_lawful ?_ ?_ ?_ h
    ⟨Pool.lawful_nil _ _, sound_start⟩).2
  · exact fun _ _ hsound ↦ hsound.spawn
  · intro p i e c k mine _ hi hmay hsound
    exact ⟨trivial, hsound.exec (Pool.accounts_of_threads hi) e hmay⟩
  · exact fun _ o ↦ o.elim

theorem clean_of_reach (h : Reach system.next Spared start p) : Clean p.world := by
  refine (System.invariant (S := system) (J := fun w accounts ↦ Sound w accounts ∧ Clean w)
    use_lawful ?_ ?_ ?_ h ⟨Pool.lawful_nil _ _, sound_start, ?_⟩).2.2
  · exact fun _ _ hJ ↦ ⟨hJ.1.spawn, hJ.2⟩
  · intro p i e c k mine hspared hi hmay hJ
    obtain ⟨hsound, hclean⟩ := hJ
    have hmine := Pool.accounts_of_threads hi
    refine ⟨trivial, hsound.exec hmine e hmay, hsound.exec_clean hmine hmay hclean ?_⟩
    intro ctx hc
    exact hspared ctx (hc ▸ Pool.command_of_threads hi)
  · exact fun _ o ↦ o.elim
  · exact fun _ hctx ↦ absurd hctx List.not_mem_nil

end Ownership

section Failures

variable {p q : Threads} {a : Action Use Outcome Empty}

/-- A context that has failed stays so. -/
theorem exec_err {w : World} {ctx : ℕ} (h : w.err ctx = true) (e : Outcome) (c : Command) :
    (w.exec e c).1.err ctx = true := by
  cases c with
  | redisConnect =>
    rw [World.exec]
    split_ifs <;> exact h
  | redisCommand ctx' args =>
    rw [World.exec]
    split_ifs
    · exact h
    · split
      · exact h
      · by_cases heq : ctx = ctx'
        · exact heq ▸ Function.update_self ..
        · exact (Function.update_of_ne heq _ _).trans h
  | _ => exact h

theorem alive_before {w : World} {e : Outcome} {c : Command} (h : ∀ ctx, (w.exec e c).1.err ctx = false)
    (ctx : ℕ) : w.err ctx = false := by
  refine Bool.eq_false_iff.mpr fun herr ↦ ?_
  exact Bool.false_ne_true ((h ctx).symm.trans (exec_err herr e c))

theorem exec_failed {w : World} {ctx : ℕ} (h : w.err ctx = false) {e : Outcome} (hreply : e.reply = none)
    {args : List Bytes} : (w.exec e (.redisCommand ctx args)).1.err ctx = true := by
  rw [World.exec, if_neg (Bool.eq_false_iff.mp h), hreply]
  exact Function.update_self ..

theorem exec_answered {w : World} (h : ∀ ctx, w.err ctx = false) {e : Outcome} {c : Command}
    (hreply : ∀ ctx args, c = .redisCommand ctx args → e.reply ≠ none) (ctx : ℕ) :
    (w.exec e c).1.err ctx = false := by
  cases c with
  | redisConnect =>
    rw [World.exec]
    split_ifs <;> exact h ctx
  | redisCommand ctx' args =>
    rw [World.exec]
    split_ifs
    · exact h ctx
    · split
      · exact h ctx
      · next hnone => exact absurd hnone (hreply ctx' args rfl)
  | _ => exact h ctx

theorem alive_of_reach (h : Reach system.next Answered start p) (ctx : ℕ) : p.world.err ctx = false := by
  refine h.invariant (I := fun p ↦ ∀ ctx, p.world.err ctx = false) ?_ (fun _ ↦ rfl) ctx
  intro p a q hok hnext halive
  obtain ⟨r, rfl, rfl⟩ | ⟨i, e, c, k, t, rfl, hi, rfl⟩ | ⟨o, _⟩ := System.next_cases hnext
  · exact halive
  · refine exec_answered halive ?_
    intro ctx args hc
    exact hok ctx args (hc ▸ Pool.command_of_threads hi)
  · exact o.elim

/-- A failure leaves a dead context behind. -/
theorem answered_of_alive (h : Reach system.next anyStep start p) (halive : ∀ ctx, p.world.err ctx = false) :
    Reach system.next Answered start p := by
  induction h with
  | refl => exact .refl _
  | tail _ hlast ih =>
    obtain ⟨a, -, hnext⟩ := hlast
    obtain ⟨r, rfl, rfl⟩ | ⟨i, e, c, k, t, rfl, hi, rfl⟩ | ⟨o, _⟩ := System.next_cases hnext
    · exact (ih halive).tail (a := .spawn r) trivial hnext
    · have hbefore := alive_before halive
      refine (ih hbefore).tail (a := .step i e) ?_ hnext
      intro ctx args hcommand hreply
      obtain rfl := Option.some.inj ((Pool.command_of_threads hi).symm.trans hcommand)
      exact Bool.false_ne_true ((halive ctx).symm.trans (exec_failed (hbefore ctx) hreply))
    · exact o.elim

/-- Where all `RedisConn`s have ended. -/
theorem alive_of_clean (h : Reach system.next anyStep start p) (hended : p.accounts.flatten = [])
    (hclean : Clean p.world) (ctx : ℕ) : p.world.err ctx = false := by
  have hsound := sound_of_reach h
  refine Bool.eq_false_iff.mpr fun herr ↦ ?_
  have howned := hsound.owned
  rw [hended, List.append_nil] at howned
  have hmem := howned.mem_iff.mpr (List.mem_range.mpr (hsound.exist ctx herr))
  exact Bool.false_ne_true ((hclean ctx hmem).symm.trans herr)

end Failures

/-- In every run each context has one place. As long as no context that has
failed is given back, `pool_` has no dead one; where all operations end, that is
as long as none fails. -/
theorem pool_alive {p : Threads} (h : Reach system.next anyStep start p) :
    Owned p ∧ (Reach system.next Spared start p → Clean p.world) ∧
      (p.accounts.flatten = [] → (Clean p.world ↔ Reach system.next Answered start p)) := by
  refine ⟨(sound_of_reach h).owned, clean_of_reach, ?_⟩
  intro hended
  constructor
  · exact fun hclean ↦ answered_of_alive h (alive_of_clean h hended hclean)
  · exact fun hanswered ctx _ ↦ alive_of_reach hanswered ctx

def getOnce (reply : Option Reply) : List (Action Use Outcome Empty) :=
  [.spawn (Request.get (ascii "im:service:chat")).use, .step 0 {}, .step 0 {}, .step 0 { reply := reply },
    .step 0 {}]

theorem pool_alive_get :
    ∃ p, p.world.pool = [0] ∧ Owned p ∧ Reach system.next Answered start p := by
  obtain ⟨p, hreach, hpool, herr, hended⟩ : ∃ p, Reach system.next anyStep start p ∧
      p.world.pool = [0] ∧ p.world.err 0 = false ∧ p.accounts.flatten = [] :=
    exists_reach_of_exec (getOnce (some (.string (ascii "127.0.0.1:50052")))) ⟨_, rfl, rfl, rfl, rfl⟩
  obtain ⟨howned, -, hiff⟩ := pool_alive hreach
  have hclean : Clean p.world := by
    intro ctx hctx
    rw [hpool] at hctx
    exact (List.mem_singleton.mp hctx).symm ▸ herr
  exact ⟨p, hpool, howned, (hiff hended).mp hclean⟩

/-- Redis goes away during one `GET`, and the context is kept. -/
theorem not_pool_alive : ¬ ∀ p, Reach system.next anyStep start p → Owned p ∧ Clean p.world := by
  intro h
  obtain ⟨p, hreach, hpool, herr⟩ : ∃ p, Reach system.next anyStep start p ∧
      p.world.pool = [0] ∧ p.world.err 0 = true :=
    exists_reach_of_exec (getOnce none) ⟨_, rfl, rfl, rfl⟩
  have hclean := (h p hreach).2 0 (hpool ▸ List.mem_singleton_self 0)
  exact Bool.false_ne_true (hclean.symm.trans herr)

end TinyIM.Store.RedisPool

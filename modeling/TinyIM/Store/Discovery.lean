import TinyIM.Store.ServiceRegistry

namespace TinyIM.Store.Discovery

open Library.ByteOrder Library.Delimited Library.Interleaving Library.Journal Library.Program
  Library.RoundRobin Library.Transition Protocol ServiceRegistry

abbrev RegistryCalls := Calls Command Answer Outcome World Request

abbrev Record := Entry Command Answer World

/-- A service name without NUL, colons and the special characters of patterns. -/
def Plain (serviceName : Bytes) : Prop := ∀ b ∈ serviceName, b ≠ 0 ∧ b ∉ ascii ":*?[\\"

/-- What is said of `KEYS`: a text without special characters and a final star
select the keys that begin with the text. -/
def Literal (glob : Bytes → Bytes → Bool) : Prop :=
  ∀ text key, (∀ b ∈ text, b ∉ ascii "*?[\\") → (glob (text ++ ascii "*") key = true ↔ text <+: key)

abbrev system (glob : Bytes → Bytes → Bool) :
    System Command Answer Outcome (List (Exchange Command Answer)) (Recorded Command Answer World)
      Request Bool Keyspace :=
  recorded Request.program (fun ok w ↦ w.exec glob ok) register

/-- `value` is what Redis had under a key of the service, and of no other, when
the call read it. -/
def ReadUnder (serviceName : Bytes) (value : Bytes) (e : Record) : Prop :=
  ∃ key stored, servicePrefix serviceName <+: key ∧
    (∀ other, Plain other → servicePrefix other <+: key → other = serviceName) ∧
    e.exchange = ⟨.get key, value⟩ ∧ e.before.redis.lookup key = some (some stored) ∧
    value = cString stored

/-- Call `i` asked Redis for the addresses of the service. `asked` is that part
of its journal. -/
structure Queried (serviceName : Bytes) (i : ℕ) (past : List Record)
    (asked : List (Exchange Command Answer)) (addresses : List Bytes) : Prop where
  runs : Runs (query serviceName) asked addresses
  read : ∀ value ∈ addresses, ∃ e ∈ past, e.call = i ∧ e.exchange ∈ asked ∧
    ReadUnder serviceName value e

def Updates (serviceName : Bytes) (e : Record) : Prop :=
  ∃ addresses, e.exchange.1 = .updateCache serviceName addresses

/-- The last refresh of the service in `past` stored `addresses`, which it had
just asked for. -/
def Refreshed (serviceName : Bytes) (past : List Record) (addresses : List Bytes) : Prop :=
  ∃ before e since, past = before ++ e :: since ∧ (∀ e' ∈ since, ¬ Updates serviceName e') ∧
    e.exchange.1 = .updateCache serviceName addresses ∧
    ∃ asked, asked <:+ journalOf e.call ⟨e.before, before⟩ ∧
      Queried serviceName e.call before asked addresses

/-- The addresses that a `Discover` chose from. -/
def Source (serviceName : Bytes) (i : ℕ) (s : Recorded Command Answer World)
    (addresses : List Bytes) : Prop :=
  (∃ past e, past ++ [e] <+: s.entries ∧ e.call = i ∧
    e.exchange = ⟨.readCache serviceName, addresses⟩ ∧ Refreshed serviceName past addresses) ∨
  ∃ asked, asked <:+: journalOf i s ∧ Queried serviceName i s.entries asked addresses

def isDraw : Command → Bool
  | .roundRobin _ _ => true
  | _ => false

/-- The round-robin choices of a journal. -/
def draws (l : List (Exchange Command Answer)) : List (Exchange Command Answer) :=
  l.filter fun x ↦ isDraw x.1

/-- What a `Discover` returned: nothing, where neither the cache nor its own query
gave it an address, and it drew no position, or else the address at the one
position that it drew. -/
def Found (serviceName : Bytes) (i : ℕ) (s : Recorded Command Answer World) (selected : Option Bytes) :
    Prop :=
  (selected = some [] ∧ draws (journalOf i s) = [] ∧ ⟨.readCache serviceName, []⟩ ∈ journalOf i s ∧
    ∃ asked, asked <:+: journalOf i s ∧ Runs (query serviceName) asked []) ∨
  ∃ addresses position value,
    draws (journalOf i s) = [⟨.roundRobin serviceName addresses, position⟩] ∧
      addresses[position]? = some value ∧ selected = some value ∧ Source serviceName i s addresses

/-- The lists and positions of the round-robin choices for a service. -/
def pick (serviceName : Bytes) (e : Record) : Option (List Bytes × ℕ) :=
  match e.exchange with
  | ⟨.roundRobin name addresses, position⟩ => if name = serviceName then some (addresses, position) else none
  | _ => none

def picks (serviceName : Bytes) (entries : List Record) : List (List Bytes × ℕ) :=
  entries.filterMap (pick serviceName)

/-- As many consecutive choices from one list as it has addresses choose each once. -/
def Fair (picks : List (List Bytes × ℕ)) : Prop :=
  ∀ addresses block, block <:+: picks → (∀ x ∈ block, x.1 = addresses) →
    block.length = addresses.length → (block.map Prod.snd).Perm (List.range addresses.length)

section Programs

/-- `UpdateCache` comes directly behind its query, and round robin has a choice. -/
def May (l : List (Exchange Command Answer)) : Command → Prop
  | .updateCache serviceName addresses => ∃ asked, asked <:+ l ∧ Runs (query serviceName) asked addresses
  | .roundRobin _ addresses => addresses ≠ []
  | _ => True

abbrev conduct : Contract Command Answer (List (Exchange Command Answer)) :=
  ⟨May, fun _ _ _ ↦ True, (keeping Command Answer).after⟩

theorem getAll_permitted {P : Command → Prop} (hget : ∀ key, P (.get key)) (keys : List Bytes) :
    Meets (permits P) (fun _ _ ↦ True) () (getAll keys) := by
  induction keys with
  | nil => exact trivial
  | cons key keys ih =>
    refine meets_perform_bind.mpr ⟨hget key, ?_⟩
    intro val _
    refine meets_bind.mpr (ih.mono ?_)
    intro _ addresses _
    split_ifs <;> exact trivial

theorem query_permitted {P : Command → Prop} (hkeys : ∀ pattern, P (.keys pattern))
    (hget : ∀ key, P (.get key)) (serviceName : Bytes) :
    Meets (permits P) (fun _ _ ↦ True) () (query serviceName) :=
  meets_perform_bind.mpr ⟨hkeys _, fun keys _ ↦ getAll_permitted hget keys⟩

theorem query_meets (serviceName : Bytes) (l : List (Exchange Command Answer)) :
    Meets conduct (fun t addresses ↦ ∃ asked, t = l ++ asked ∧ Runs (query serviceName) asked addresses) l
      (query serviceName) :=
  meets_noting l (query_permitted (fun _ _ ↦ trivial) (fun _ _ ↦ trivial) serviceName)

theorem refreshAll_meets (targets : List Bytes) (l : List (Exchange Command Answer)) :
    Meets conduct (fun _ _ ↦ True) l (refreshAll targets) := by
  induction targets generalizing l with
  | nil => exact trivial
  | cons serviceName targets ih =>
    refine meets_bind.mpr ((query_meets serviceName l).mono ?_)
    intro t addresses hcase
    obtain ⟨asked, rfl, hruns⟩ := hcase
    refine meets_perform_bind.mpr ⟨⟨asked, List.suffix_append l asked, hruns⟩, ?_⟩
    intro _ _
    exact ih _

theorem select_meets (serviceName : Bytes) (addresses : List Bytes) (l : List (Exchange Command Answer)) :
    Meets conduct (fun _ _ ↦ True) l (select serviceName addresses) := by
  rw [select]
  split_ifs with hempty
  · exact trivial
  · exact meets_perform_bind.mpr ⟨hempty, fun _ _ ↦ trivial⟩

theorem discover_meets (serviceName : Bytes) (l : List (Exchange Command Answer)) :
    Meets conduct (fun _ _ ↦ True) l (discover serviceName) := by
  refine meets_perform_bind.mpr ⟨trivial, ?_⟩
  intro cached _
  split_ifs with hcached
  · refine meets_bind.mpr ((query_meets serviceName _).mono ?_)
    intro t addresses _
    exact select_meets serviceName addresses t
  · exact select_meets serviceName cached _

theorem program_meets (r : Request) : Meets conduct (fun _ _ ↦ True) [] r.program := by
  cases r with
  | observe serviceName => exact meets_perform_bind.mpr ⟨trivial, fun _ _ ↦ trivial⟩
  | refreshCache =>
    refine meets_bind.mpr (meets_perform_bind.mpr ⟨trivial, ?_⟩)
    intro targets _
    refine (refreshAll_meets targets _).mono ?_
    exact fun _ _ _ ↦ trivial
  | discover serviceName =>
    refine meets_bind.mpr ((discover_meets serviceName []).mono ?_)
    exact fun _ _ _ ↦ trivial

end Programs

section Runs

variable {l : List (Exchange Command Answer)} {serviceName : Bytes} {addresses : List Bytes}

theorem getAll_runs {keys : List Bytes} (h : Runs (getAll keys) l addresses) {value : Bytes}
    (hvalue : value ∈ addresses) : value ≠ [] ∧ ∃ key ∈ keys, ⟨.get key, value⟩ ∈ l := by
  induction keys generalizing l addresses with
  | nil =>
    obtain ⟨-, rfl⟩ := h
    cases hvalue
  | cons key keys ih =>
    obtain ⟨val, rest, rfl, hrest⟩ := runs_perform_bind.mp h
    obtain ⟨first, last, others, rfl, hfirst, hlast⟩ := runs_bind.mp hrest
    have hold : value ∈ others → value ≠ [] ∧ ∃ k ∈ key :: keys, ⟨.get k, value⟩ ∈
        (⟨.get key, val⟩ :: (first ++ last) : List (Exchange Command Answer)) := by
      intro hothers
      obtain ⟨hne, k, hk, hget⟩ := ih hfirst hothers
      exact ⟨hne, k, List.mem_cons_of_mem _ hk, List.mem_cons_of_mem _ (List.mem_append_left _ hget)⟩
    split_ifs at hlast with hempty
    · obtain ⟨-, rfl⟩ := hlast
      exact hold hvalue
    · obtain ⟨-, rfl⟩ := hlast
      rcases List.mem_cons.mp hvalue with rfl | hothers
      · exact ⟨hempty, key, List.mem_cons_self, List.mem_cons_self⟩
      · exact hold hothers

theorem query_runs (h : Runs (query serviceName) l addresses) {value : Bytes} (hvalue : value ∈ addresses) :
    value ≠ [] ∧ ∃ keys : List Bytes, ⟨.keys (pattern serviceName), keys⟩ ∈ l ∧
      ∃ key ∈ keys, ⟨.get key, value⟩ ∈ l := by
  obtain ⟨keys, rest, rfl, hrest⟩ := runs_perform_bind.mp h
  obtain ⟨hne, key, hkey, hget⟩ := getAll_runs hrest hvalue
  exact ⟨hne, keys, List.mem_cons_self, key, hkey, List.mem_cons_of_mem _ hget⟩

theorem draws_append (l l' : List (Exchange Command Answer)) : draws (l ++ l') = draws l ++ draws l' :=
  List.filter_append _ _

theorem draws_cons_of_not {c : Command} (a : Answer c) (hc : isDraw c = false) :
    draws (⟨c, a⟩ :: l) = draws l := by
  simp [draws, hc]

/-- A program of commands that draw nothing has drawn nothing. -/
theorem draws_eq_nil {α : Type} {p : Handler α} {a : α} (h : Runs p l a)
    (hp : Meets (permits fun c ↦ isDraw c = false) (fun _ _ ↦ True) () p) : draws l = [] := by
  refine List.filter_eq_nil_iff.mpr fun x hx ↦ ?_
  obtain ⟨_, hpermitted⟩ := h.permitted hp (fun _ _ _ ↦ trivial) x hx
  exact Bool.eq_false_iff.mp hpermitted

theorem query_draws (h : Runs (query serviceName) l addresses) : draws l = [] :=
  draws_eq_nil h (query_permitted (fun _ ↦ rfl) (fun _ ↦ rfl) serviceName)

theorem select_runs {selected : Option Bytes} (h : Runs (select serviceName addresses) l selected) :
    (addresses = [] ∧ l = [] ∧ selected = some []) ∨ (addresses ≠ [] ∧
      ∃ position, l = [⟨.roundRobin serviceName addresses, position⟩] ∧ selected = addresses[position]?) := by
  rw [select] at h
  split_ifs at h with hempty
  · obtain ⟨rfl, rfl⟩ := h
    exact .inl ⟨hempty, rfl, rfl⟩
  · obtain ⟨position, rest, rfl, rfl, rfl⟩ := runs_perform_bind.mp h
    exact .inr ⟨hempty, position, rfl, rfl⟩

/-- A `Discover` draws at most once, and returns what stands at that place. -/
theorem discover_runs {selected : Option Bytes} (h : Runs (discover serviceName) l selected) :
    (selected = some [] ∧ draws l = [] ∧ ⟨.readCache serviceName, []⟩ ∈ l ∧
      ∃ asked, asked <:+: l ∧ Runs (query serviceName) asked []) ∨
    ∃ addresses position, draws l = [⟨.roundRobin serviceName addresses, position⟩] ∧
      selected = addresses[position]? ∧ addresses ≠ [] ∧
      (⟨.readCache serviceName, addresses⟩ ∈ l ∨
        ∃ asked, asked <:+: l ∧ Runs (query serviceName) asked addresses) := by
  obtain ⟨cached, rest, rfl, hrest⟩ := runs_perform_bind.mp h
  rw [draws_cons_of_not _ rfl]
  split_ifs at hrest with hcached
  · obtain ⟨asked, last, addresses, rfl, hasked, hlast⟩ := runs_bind.mp hrest
    have hinfix : asked <:+: ⟨.readCache serviceName, cached⟩ :: (asked ++ last) :=
      ⟨[⟨.readCache serviceName, cached⟩], last, rfl⟩
    rw [draws_append, query_draws hasked, List.nil_append]
    rcases select_runs hlast with ⟨rfl, rfl, hselected⟩ | ⟨hne, position, rfl, hselected⟩
    · exact .inl ⟨hselected, rfl, hcached ▸ List.mem_cons_self, asked, hinfix, hasked⟩
    · exact .inr ⟨addresses, position, rfl, hselected, hne, .inr ⟨asked, hinfix, hasked⟩⟩
  · rcases select_runs hrest with ⟨hempty, -⟩ | ⟨-, position, rfl, hselected⟩
    · exact absurd hempty hcached
    · exact .inr ⟨cached, position, rfl, hselected, hcached, .inl List.mem_cons_self⟩

theorem refreshAll_permitted (targets : List Bytes) :
    Meets (permits fun c ↦ isDraw c = false) (fun _ _ ↦ True) () (refreshAll targets) := by
  induction targets with
  | nil => exact trivial
  | cons serviceName targets ih =>
    refine meets_bind.mpr ((query_permitted (fun _ ↦ rfl) (fun _ ↦ rfl) serviceName).mono ?_)
    exact fun _ _ _ ↦ meets_perform_bind.mpr ⟨rfl, fun _ _ ↦ ih⟩

/-- Only a `Discover` draws, for its own service, and returns what it drew. -/
theorem program_draws {r : Request} {o : Outcome} {position : ℕ} (h : Runs r.program l o)
    (hdrawn : ⟨.roundRobin serviceName addresses, position⟩ ∈ l) :
    r = .discover serviceName ∧ o = .discovered addresses[position]? := by
  have hmem : ⟨.roundRobin serviceName addresses, position⟩ ∈ draws l := List.mem_filter.mpr ⟨hdrawn, rfl⟩
  cases r with
  | observe name =>
    rw [draws_eq_nil h (meets_perform_bind.mpr ⟨rfl, fun _ _ ↦ trivial⟩)] at hmem
    cases hmem
  | refreshCache =>
    have hpermitted : Meets (permits fun c ↦ isDraw c = false) (fun _ _ ↦ True) ()
        (Request.program .refreshCache) := by
      refine meets_bind.mpr (meets_perform_bind.mpr ⟨rfl, fun targets _ ↦ ?_⟩)
      exact (refreshAll_permitted targets).mono fun _ _ _ ↦ trivial
    rw [draws_eq_nil h hpermitted] at hmem
    cases hmem
  | discover name =>
    obtain ⟨first, rest, selected, rfl, hdiscover, rfl, rfl⟩ := runs_bind.mp h
    rw [List.append_nil] at hmem
    rcases discover_runs hdiscover with ⟨-, hnone, -⟩ | ⟨list, place, hone, rfl, -⟩
    · rw [hnone] at hmem
      cases hmem
    · rw [hone] at hmem
      obtain ⟨hcommand, hplace⟩ := Sigma.mk.inj (List.mem_singleton.mp hmem)
      obtain ⟨rfl, rfl⟩ := Command.roundRobin.inj hcommand
      obtain rfl := eq_of_heq hplace
      exact ⟨rfl, rfl⟩

end Runs

section Turns

variable {glob : Bytes → Bytes → Bool} {redis : Keyspace} {s : RegistryCalls}
  {ok : RegistryCalls → Action Request Bool Keyspace → Prop}

/-- `rr_index_` after these choices, which are at the positions that it gave. -/
def Turned (serviceName : Bytes) (w : World) (entries : List Record) : Prop :=
  (picks serviceName entries).map Prod.snd = draw 0 ((picks serviceName entries).map fun x ↦ x.1.length) ∧
    w.rrIndex serviceName = ((picks serviceName entries).map fun x ↦ x.1.length).foldl advance 0

theorem picks_concat (serviceName : Bytes) (entries : List Record) (e : Record) :
    picks serviceName (entries ++ [e]) = picks serviceName entries ++ (pick serviceName e).toList := by
  rw [picks, List.filterMap_append]
  cases he : pick serviceName e <;> simp [picks, he]

theorem turned_pass {serviceName : Bytes} {w w' : World} {entries : List Record} {e : Record}
    (h : Turned serviceName w entries) (hpick : pick serviceName e = none)
    (hindex : w'.rrIndex serviceName = w.rrIndex serviceName) :
    Turned serviceName w' (entries ++ [e]) := by
  rw [Turned, picks_concat, hpick, Option.toList_none, List.append_nil, hindex]
  exact h

theorem turned_turn {serviceName : Bytes} {w w' : World} {entries : List Record} {e : Record}
    {addresses : List Bytes} (h : Turned serviceName w entries)
    (hpick : pick serviceName e = some (addresses, position (w.rrIndex serviceName) addresses.length))
    (hindex : w'.rrIndex serviceName = advance (w.rrIndex serviceName) addresses.length) :
    Turned serviceName w' (entries ++ [e]) := by
  obtain ⟨hdrawn, hstands⟩ := h
  rw [Turned, picks_concat, hpick, Option.toList_some, List.map_append, List.map_append, draw_append,
    List.foldl_append, ← hstands, hdrawn]
  exact ⟨rfl, hindex⟩

theorem turned_exec {serviceName : Bytes} {w : World} {entries : List Record}
    (h : Turned serviceName w entries) (i : ℕ) (ok : Bool) (c : Command) :
    Turned serviceName (w.exec glob ok c).1
      (entries ++ [⟨i, w, ⟨c, (w.exec glob ok c).2⟩, (w.exec glob ok c).1⟩]) := by
  cases c with
  | roundRobin name addresses =>
    by_cases hname : name = serviceName
    · subst hname
      exact turned_turn h (if_pos rfl) (Function.update_self ..)
    · exact turned_pass h (if_neg hname) (Function.update_of_ne (Ne.symm hname) _ _)
  | observe name =>
    refine turned_pass h rfl ?_
    change (if name ∈ w.observed then w else _).rrIndex serviceName = _
    split_ifs <;> rfl
  | keys pattern => cases ok <;> exact turned_pass h rfl rfl
  | get key => cases ok <;> exact turned_pass h rfl rfl
  | _ => exact turned_pass h rfl rfl

theorem turned_of_reach (h : Reach (system glob).serve ok (idle (start redis)) s) (serviceName : Bytes) :
    Turned serviceName s.pool.world.world s.pool.world.entries := by
  refine (along_of_reach (I := Turned serviceName) ⟨rfl, rfl⟩ ?_ ?_ h).1
  · exact fun i ok w l c hturned ↦ turned_exec hturned i ok c
  · intro redis' w w' l hw hturned
    obtain rfl := Option.some.inj hw
    exact hturned

theorem fair_of_turned {serviceName : Bytes} {w : World} {entries : List Record}
    (h : Turned serviceName w entries) : Fair (picks serviceName entries) := by
  intro addresses block hblock hsame hlength
  obtain ⟨first, last, hpicks⟩ := hblock
  have hsizes : block.map (fun x ↦ x.1.length) = List.replicate addresses.length addresses.length := by
    refine List.eq_replicate_iff.mpr ⟨by rw [List.length_map, hlength], ?_⟩
    intro size hsize
    obtain ⟨x, hx, rfl⟩ := List.mem_map.mp hsize
    rw [hsame x hx]
  have hdrawn := h.1
  rw [← hpicks, List.append_assoc, List.map_append, List.map_append, List.map_append, List.map_append,
    draw_append, draw_append, hsizes] at hdrawn
  obtain ⟨-, hrest⟩ := List.append_inj hdrawn (by simp [length_draw])
  obtain ⟨hblock, -⟩ := List.append_inj hrest (by simp [length_draw, hlength])
  rw [hblock]
  exact draw_replicate_perm _ _

end Turns

section Names

variable {serviceName key : Bytes}

theorem plain_servicePrefix (h : Plain serviceName) :
    ∀ b ∈ servicePrefix serviceName, b ≠ 0 ∧ b ∉ ascii "*?[\\" := by
  have hservice : ∀ b ∈ ascii "im:service:", b ≠ 0 ∧ b ∉ ascii "*?[\\" := by decide +kernel
  have hcolon : ∀ b ∈ ascii ":", b ≠ 0 ∧ b ∉ ascii "*?[\\" := by decide +kernel
  intro b hb
  rcases List.mem_append.mp hb with hb | hb
  · rcases List.mem_append.mp hb with hb | hb
    · exact hservice b hb
    · exact ⟨(h b hb).1, fun hmem ↦ (h b hb).2 (List.mem_cons_of_mem _ hmem)⟩
  · exact hcolon b hb

theorem zero_not_mem_servicePrefix (h : Plain serviceName) : 0 ∉ servicePrefix serviceName :=
  fun hmem ↦ (plain_servicePrefix h 0 hmem).1 rfl

theorem cString_pattern (h : Plain serviceName) : cString (pattern serviceName) = pattern serviceName :=
  cString_append (zero_not_mem_servicePrefix h) _

theorem prefix_cString (h : Plain serviceName) (hkey : servicePrefix serviceName <+: key) :
    servicePrefix serviceName <+: cString key := by
  obtain ⟨rest, rfl⟩ := hkey
  rw [cString_append (zero_not_mem_servicePrefix h)]
  exact List.prefix_append _ _

theorem colon_not_mem (h : Plain serviceName) : 58 ∉ serviceName :=
  fun hmem ↦ (h 58 hmem).2 List.mem_cons_self

/-- A key has one service name. -/
theorem servicePrefix_inj {other : Bytes} (h : Plain serviceName) (hother : Plain other)
    (hkey : servicePrefix serviceName <+: key) (hkey' : servicePrefix other <+: key) :
    other = serviceName := by
  obtain ⟨rest, rfl⟩ := hkey
  obtain ⟨rest', heq⟩ := hkey'
  simp only [servicePrefix, List.append_assoc] at heq
  have hcut := congrArg (cut 58) (List.append_cancel_left heq)
  rw [show ascii ":" = [58] from rfl, List.singleton_append, List.singleton_append,
    cut_append (colon_not_mem hother), cut_append (colon_not_mem h)] at hcut
  exact (Prod.mk.inj (Option.some.inj hcut)).1

end Names

section Reads

variable {glob : Bytes → Bytes → Bool} {serviceName : Bytes}

theorem keys_exec {w : World} (hglob : Literal glob) (hname : Plain serviceName) {ok : Bool} {key : Bytes}
    (h : key ∈ (w.exec glob ok (.keys (pattern serviceName))).2) :
    servicePrefix serviceName <+: key ∧ 0 ∉ key := by
  cases ok with
  | false => cases h
  | true =>
    obtain ⟨stored, hstored, rfl⟩ := List.mem_map.mp h
    have hmatch := (List.mem_filter.mp hstored).2
    rw [cString_pattern hname] at hmatch
    have hprefix := (hglob _ stored fun b hb ↦ (plain_servicePrefix hname b hb).2).mp hmatch
    exact ⟨prefix_cString hname hprefix, zero_not_mem_cString⟩

theorem get_exec {w : World} {ok : Bool} {key : Bytes} (hkey : 0 ∉ key)
    (h : (w.exec glob ok (.get key)).2 ≠ []) :
    ∃ stored, w.redis.lookup key = some (some stored) ∧ (w.exec glob ok (.get key)).2 = cString stored := by
  cases ok with
  | false => exact absurd rfl h
  | true =>
    change w.get key ≠ [] at h
    change ∃ stored, _ ∧ w.get key = cString stored
    rw [World.get, cString_eq_self hkey] at h ⊢
    cases hlookup : w.redis.lookup key with
    | none =>
      rw [hlookup] at h
      exact absurd rfl h
    | some value =>
      cases value with
      | none =>
        rw [hlookup] at h
        exact absurd rfl h
      | some stored => exact ⟨stored, rfl, rfl⟩

/-- A query reads what it says under keys of its service. -/
theorem queried_of_runs (hglob : Literal glob) (hname : Plain serviceName) {i : ℕ} {past : List Record}
    {asked : List (Exchange Command Answer)} {addresses : List Bytes}
    (h : Runs (query serviceName) asked addresses)
    (hasked : ∀ x ∈ asked, ∃ e ∈ past, e.call = i ∧ e.exchange = x)
    (heffects : ∀ e ∈ past, ∃ ok, e.before.exec glob ok e.exchange.1 = (e.after, e.exchange.2)) :
    Queried serviceName i past asked addresses := by
  refine ⟨h, ?_⟩
  intro value hvalue
  obtain ⟨hne, keys, hkeys, key, hkey, hget⟩ := query_runs h hvalue
  have hprefix : servicePrefix serviceName <+: key ∧ 0 ∉ key := by
    obtain ⟨e, he, -, hexchange⟩ := hasked _ hkeys
    obtain ⟨ok, hexec⟩ := heffects e he
    rw [hexchange] at hexec
    have hkeys' : (e.before.exec glob ok (.keys (pattern serviceName))).2 = keys := congrArg Prod.snd hexec
    exact keys_exec hglob hname (hkeys'.symm ▸ hkey)
  obtain ⟨e, he, hcall, hexchange⟩ := hasked _ hget
  obtain ⟨ok, hexec⟩ := heffects e he
  rw [hexchange] at hexec
  have hvalue' : (e.before.exec glob ok (.get key)).2 = value := congrArg Prod.snd hexec
  obtain ⟨stored, hlookup, hstored⟩ := get_exec hprefix.2 (hvalue' ▸ hne)
  refine ⟨e, he, hcall, hexchange ▸ hget, key, stored, hprefix.1, ?_, hexchange, hlookup,
    hvalue'.symm.trans hstored⟩
  exact fun other hother hkey' ↦ servicePrefix_inj hname hother hprefix.1 hkey'

end Reads

section Cache

variable {glob : Bytes → Bytes → Bool} {redis : Keyspace} {s : RegistryCalls} {serviceName : Bytes}
  {ok : RegistryCalls → Action Request Bool Keyspace → Prop} {addresses : List Bytes}

/-- The last entry that stored addresses of the service. -/
def LastUpdate (serviceName : Bytes) (entries : List Record) (addresses : List Bytes) (e : Record) : Prop :=
  e.exchange.1 = .updateCache serviceName addresses ∧
    ∃ before since, entries = before ++ e :: since ∧ ∀ e' ∈ since, ¬ Updates serviceName e'

def Cached (serviceName : Bytes) (w : World) (entries : List Record) : Prop :=
  ∀ addresses, w.cache serviceName = some addresses → ∃ e, LastUpdate serviceName entries addresses e

theorem cached_pass {w w' : World} {entries : List Record} {e : Record} (h : Cached serviceName w entries)
    (he : ¬ Updates serviceName e) (hcache : w'.cache serviceName = w.cache serviceName) :
    Cached serviceName w' (entries ++ [e]) := by
  intro addresses haddresses
  obtain ⟨e₀, hupdate, before, since, rfl, hsince⟩ := h addresses (hcache ▸ haddresses)
  refine ⟨e₀, hupdate, before, since ++ [e], by simp, ?_⟩
  intro e' he'
  rcases List.mem_append.mp he' with he' | he'
  · exact hsince e' he'
  · exact List.mem_singleton.mp he' ▸ he

theorem cached_exec {w : World} {entries : List Record} (h : Cached serviceName w entries) (i : ℕ)
    (ok : Bool) (c : Command) : Cached serviceName (w.exec glob ok c).1
      (entries ++ [⟨i, w, ⟨c, (w.exec glob ok c).2⟩, (w.exec glob ok c).1⟩]) := by
  cases c with
  | updateCache name stored =>
    by_cases hname : name = serviceName
    · subst hname
      intro addresses haddresses
      change Function.update w.cache name (some stored) name = some addresses at haddresses
      rw [Function.update_self] at haddresses
      obtain rfl := Option.some.inj haddresses
      exact ⟨_, rfl, entries, [], rfl, fun _ he ↦ absurd he List.not_mem_nil⟩
    · refine cached_pass h ?_ (Function.update_of_ne (Ne.symm hname) _ _)
      rintro ⟨addresses, hupdate⟩
      exact hname (Command.updateCache.inj hupdate).1
  | observe name =>
    refine cached_pass h (fun hupdate ↦ ?_) ?_
    · obtain ⟨_, hupdate⟩ := hupdate
      cases hupdate
    · change (if name ∈ w.observed then w else _).cache serviceName = _
      split_ifs <;> rfl
  | _ =>
    refine cached_pass h (fun hupdate ↦ ?_) ?_
    · obtain ⟨_, hupdate⟩ := hupdate
      cases hupdate
    · cases ok <;> rfl

theorem cached_of_reach (h : Reach (system glob).serve ok (idle (start redis)) s) {past : List Record}
    {e : Record} (hpast : past ++ [e] <+: s.pool.world.entries) : Cached serviceName e.before past := by
  refine (along_of_reach (I := Cached serviceName) ?_ ?_ ?_ h).2 past e hpast
  · intro _ hcache
    cases hcache
  · exact fun i ok w l c hcached ↦ cached_exec hcached i ok c
  · intro redis' w w' l hw hcached
    obtain rfl := Option.some.inj hw
    exact hcached

end Cache

section Reached

variable {glob : Bytes → Bytes → Bool} {redis : Keyspace} {s : RegistryCalls} {serviceName : Bytes}

theorem records_kept (h : Reach (system glob).serve anyStep (idle (start redis)) s) :
    s.Keeps (fun _ ↦ keeping Command Answer) (fun r t a ↦ Runs r.program t a) ∧
      Records (fun ok w ↦ w.exec glob ok) (fun _ ↦ ([] : List Unit)) (fun _ ↦ []) (start redis) s.pool.world
        s.pool.accounts :=
  records_of_reach (fun _ _ _ _ ↦ rfl) (fun _ _ _ _ ↦ rfl) h

theorem conduct_kept (h : Reach (system glob).serve anyStep (idle (start redis)) s) :
    Conducted (fun _ ↦ May) (fun _ _ ↦ True) s.pool.world s.requests :=
  conducted_of_reach program_meets (fun _ _ _ _ _ _ _ _ _ _ ↦ trivial) h

theorem pick_eq_some {e : Record} {addresses : List Bytes} {place : ℕ} :
    pick serviceName e = some (addresses, place) ↔
      e.exchange = ⟨.roundRobin serviceName addresses, place⟩ := by
  obtain ⟨i, w, ⟨c, a⟩, w'⟩ := e
  constructor
  · intro hpick
    cases c with
    | roundRobin name list =>
      change (if name = serviceName then some (list, a) else none) = some (addresses, place) at hpick
      split_ifs at hpick with hname
      obtain ⟨rfl, rfl⟩ := Prod.mk.inj (Option.some.inj hpick)
      subst hname
      rfl
    | _ => cases hpick
  · intro hexchange
    obtain rfl := (Sigma.mk.inj hexchange).1
    obtain rfl := eq_of_heq (Sigma.mk.inj hexchange).2
    exact if_pos rfl

theorem place_lt (h : Reach (system glob).serve anyStep (idle (start redis)) s) {e : Record}
    (he : e ∈ s.pool.world.entries) {addresses : List Bytes} {place : ℕ}
    (hexchange : e.exchange = ⟨.roundRobin serviceName addresses, place⟩) : place < addresses.length := by
  obtain ⟨ok, hexec⟩ := (records_kept h).2.effects e he
  obtain ⟨past, hpast⟩ := exists_prefix_of_mem he
  obtain ⟨r, -, hmay, -⟩ := conduct_kept h past e hpast
  rw [hexchange] at hexec hmay
  obtain rfl : position (e.before.rrIndex serviceName) addresses.length = place := congrArg Prod.snd hexec
  exact position_lt (List.length_pos_iff.mpr hmay)

/-- What a call read from the cache came from the last refresh. -/
theorem refreshed_of_read (hglob : Literal glob) (hname : Plain serviceName)
    (h : Reach (system glob).serve anyStep (idle (start redis)) s) {past : List Record} {e : Record}
    (hpast : past ++ [e] <+: s.pool.world.entries) {addresses : List Bytes}
    (hexchange : e.exchange = ⟨.readCache serviceName, addresses⟩) (hne : addresses ≠ []) :
    Refreshed serviceName past addresses := by
  have heffects := (records_kept h).2.effects
  obtain ⟨ok, hexec⟩ := heffects e (hpast.subset (List.mem_append_right _ (List.mem_singleton_self e)))
  rw [hexchange] at hexec
  have hread : (e.before.cache serviceName).getD [] = addresses := congrArg Prod.snd hexec
  cases hcache : e.before.cache serviceName with
  | none =>
    rw [hcache] at hread
    exact absurd hread.symm hne
  | some cached =>
    rw [hcache] at hread
    obtain rfl := hread
    obtain ⟨e', hupdate, before, since, rfl, hsince⟩ := cached_of_reach h hpast cached hcache
    have hbefore : before ++ [e'] <+: s.pool.world.entries := by
      refine List.IsPrefix.trans ?_ hpast
      exact ⟨since ++ [e], by simp⟩
    obtain ⟨r, -, hmay, -⟩ := conduct_kept h before e' hbefore
    rw [hupdate] at hmay
    obtain ⟨asked, hsuffix, hruns⟩ := hmay
    refine ⟨before, e', since, rfl, hsince, hupdate, asked, hsuffix, ?_⟩
    refine queried_of_runs hglob hname hruns ?_ ?_
    · exact fun x hx ↦ mem_journalOf.mp (hsuffix.subset hx)
    · exact fun e'' he'' ↦ heffects e'' (hbefore.subset (List.mem_append_left _ he''))

theorem found_of_done (hglob : Literal glob) (hname : Plain serviceName)
    (h : Reach (system glob).serve anyStep (idle (start redis)) s) {i : ℕ}
    {th : Thread Command Answer Outcome (List (Exchange Command Answer))} {selected : Option Bytes}
    (hr : s.requests[i]? = some (.discover serviceName)) (hth : s.pool.threads[i]? = some th)
    (hdone : th.prog = .done (.discovered selected)) : Found serviceName i s.pool.world selected := by
  have heffects := (records_kept h).2.effects
  obtain ⟨l, rest, selected', hjournal, hdiscover, rfl, heq⟩ :=
    runs_bind.mp (runs_of_keeps (records_kept h) hr hth hdone)
  obtain rfl := Outcome.discovered.inj heq
  rw [List.append_nil] at hjournal
  rcases discover_runs hdiscover with
    ⟨hempty, hundrawn, hmissed, hasked⟩ | ⟨addresses, place, hpick, rfl, hne, hsource⟩
  · rw [← hjournal] at hundrawn hmissed hasked
    exact .inl ⟨hempty, hundrawn, hmissed, hasked⟩
  · rw [← hjournal] at hpick hsource
    have hdrawn := (List.mem_filter.mp (hpick ▸ List.mem_singleton_self _)).1
    obtain ⟨e, he, -, hexchange⟩ := mem_journalOf.mp hdrawn
    have hvalue := List.getElem?_eq_getElem (place_lt h he hexchange)
    refine .inr ⟨addresses, place, _, hpick, hvalue, hvalue, ?_⟩
    rcases hsource with hread | ⟨asked, hasked, hruns⟩
    · obtain ⟨e', he', hcall, hexchange'⟩ := mem_journalOf.mp hread
      obtain ⟨past, hpast⟩ := exists_prefix_of_mem he'
      exact .inl ⟨past, e', hpast, hcall, hexchange', refreshed_of_read hglob hname h hpast hexchange' hne⟩
    · exact .inr ⟨asked, hasked, queried_of_runs hglob hname hruns
        (fun x hx ↦ mem_journalOf.mp (hasked.subset hx)) heffects⟩

/-- A call that drew and has ended is a `Discover` that returned what it drew. -/
theorem drawn_of_done (h : Reach (system glob).serve anyStep (idle (start redis)) s) {e : Record}
    (he : e ∈ s.pool.world.entries) {addresses : List Bytes} {place : ℕ}
    (hpick : pick serviceName e = some (addresses, place))
    {th : Thread Command Answer Outcome (List (Exchange Command Answer))} {o : Outcome}
    (hth : s.pool.threads[e.call]? = some th) (hdone : th.prog = .done o) :
    s.requests[e.call]? = some (.discover serviceName) ∧ o = .discovered addresses[place]? := by
  obtain ⟨r, hr, -⟩ := (conduct_kept h).of_mem he
  obtain ⟨rfl, hselected⟩ := program_draws (runs_of_keeps (records_kept h) hr hth hdone)
    (mem_journalOf.mpr ⟨e, he, rfl, pick_eq_some.mp hpick⟩)
  exact ⟨hr, hselected⟩

end Reached

/-- For any interleaving of the calls, with registrations that come and expire
between any two steps. The choices are fair, and each is what its call returns. -/
theorem discovery_sound {glob : Bytes → Bytes → Bool} (hglob : Literal glob) {redis : Keyspace}
    {s : RegistryCalls} (h : Reach (system glob).serve anyStep (idle (start redis)) s) :
    (∀ serviceName, ∀ x ∈ picks serviceName s.pool.world.entries, x.2 < x.1.length) ∧
    (∀ serviceName i th selected, Plain serviceName → s.requests[i]? = some (.discover serviceName) →
      s.pool.threads[i]? = some th → th.prog = .done (.discovered selected) →
      Found serviceName i s.pool.world selected) ∧
    (∀ serviceName, Fair (picks serviceName s.pool.world.entries)) ∧
    ∀ serviceName, ∀ e ∈ s.pool.world.entries, ∀ addresses place,
      pick serviceName e = some (addresses, place) → ∀ th o, s.pool.threads[e.call]? = some th →
      th.prog = .done o →
      s.requests[e.call]? = some (.discover serviceName) ∧ o = .discovered addresses[place]? := by
  refine ⟨?_, ?_, ?_, ?_⟩
  · intro serviceName x hx
    obtain ⟨e, he, hpick⟩ := List.mem_filterMap.mp hx
    exact place_lt h he (pick_eq_some.mp hpick)
  · exact fun serviceName i th selected hname hr hth hdone ↦ found_of_done hglob hname h hr hth hdone
  · exact fun serviceName ↦ fair_of_turned (turned_of_reach h serviceName)
  · exact fun serviceName e he addresses place hpick th o hth hdone ↦ drawn_of_done h he hpick hth hdone

section Trace

/-- What `KEYS` does for a text with a star behind it. -/
def starGlob (pattern key : Bytes) : Bool :=
  pattern.getLast? = some 42 && pattern.dropLast.isPrefixOf key

theorem literal_starGlob : Literal starGlob := by
  intro text key _
  rw [starGlob, show ascii "*" = [42] from rfl, List.getLast?_concat, List.dropLast_concat]
  simp [List.isPrefixOf_iff_prefix]

def registered : Keyspace :=
  (AList.insert (pattern (ascii "b")) (some (ascii "z")) ∅
    |>.insert (servicePrefix (ascii "a") ++ ascii "y") (some (ascii "y"))
    |>.insert (servicePrefix (ascii "a") ++ ascii "x") (some (ascii "x")))

/-- One refresh and two calls of `Discover` behind it. -/
def observing : List (Action Request Bool Keyspace) :=
  [.outside registered, .spawn (.observe (ascii "a")), .spawn .refreshCache, .step 0 true, .step 1 true,
    .step 1 true, .step 1 true, .step 1 true, .step 1 true, .spawn (.discover (ascii "a")),
    .spawn (.discover (ascii "a")), .outside ∅, .step 3 true, .step 2 true, .step 2 true, .step 3 true]

theorem discovery_sound_observing :
    ∃ s, Reach (system starGlob).serve anyStep (idle (start ∅)) s ∧
      picks (ascii "a") s.pool.world.entries =
        [([ascii "x", ascii "y"], 0), ([ascii "x", ascii "y"], 1)] ∧
      Found (ascii "a") 3 s.pool.world (some (ascii "y")) := by
  obtain ⟨s, hreach, hpicks, th, hr, hth, hdone⟩ :
      ∃ s, Reach (system starGlob).serve anyStep (idle (start ∅)) s ∧
        picks (ascii "a") s.pool.world.entries =
          [([ascii "x", ascii "y"], 0), ([ascii "x", ascii "y"], 1)] ∧
        ∃ th, s.requests[3]? = some (.discover (ascii "a")) ∧ s.pool.threads[3]? = some th ∧
          th.prog = .done (.discovered (some (ascii "y"))) :=
    exists_reach_of_exec observing ⟨_, rfl, rfl, _, rfl, rfl, rfl⟩
  have hplain : Plain (ascii "a") := by unfold Plain; decide +kernel
  exact ⟨s, hreach, hpicks, (discovery_sound literal_starGlob hreach).2.1 _ 3 th _ hplain hr hth hdone⟩

end Trace

end TinyIM.Store.Discovery

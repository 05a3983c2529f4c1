import TinyIM.Auth.KickRace
import TinyIM.Library.Delimited

namespace TinyIM.Auth.Handshake

open Library.ByteOrder Library.Decimal Library.Delimited Protocol Store Gateway KickRace

/-- What the parse loop of `HttpSession::OnRead` has found. -/
structure Query where
  userId : ℤ := 0
  token : Bytes := []
  device : Bytes := ascii "PC"
  deriving DecidableEq, Repr

/-- `none` is the exception of `std::stoll`, which the handler does not catch. -/
def Query.set (q : Query) : Bytes × Bytes → Option Query
  | (key, val) =>
    if key = ascii "id" then (stoll val).map fun userId ↦ { q with userId := userId }
    else if key = ascii "token" then some { q with token := val }
    else if key = ascii "device" then some { q with device := val }
    else some q

def parseSegment (q : Query) (segment : Bytes) : Option Query :=
  match cut 61 segment with
  | none => some q
  | some keyVal => q.set keyVal

def parseTarget (target : Bytes) : Option Query :=
  match cut 63 target with
  | none => some {}
  | some (_, query) => (getlines 38 query).foldlM parseSegment {}

def authenticate (r : Redis) (q : Query) : ℤ :=
  if authOk r q.userId q.token q.device then q.userId else 0

/-- An upgrade request in `HttpSession::OnRead`: the WebSocket session that it
creates, if no exception leaves the handler. -/
def onRead (r : Redis) (target : Bytes) : Option Session :=
  (parseTarget target).map fun q ↦ ⟨authenticate r q, q.device⟩

/-- The target of `TestClient::Connect`. -/
def connectTarget (uid : ℤ) (token device : Bytes) : Bytes :=
  ascii "/ws" ++ ascii "?id=" ++ stdToString uid ++ ascii "&token=" ++ token ++ ascii "&device=" ++ device

/-- A target that the HTTP parser lets through. It refuses control characters. -/
structure Target where
  text : Bytes
  noNul : 0 ∉ text

/-- The parameters of a target: the text behind the first `?`, split at each `&`,
and each segment at its first `=`. -/
def params (target : Bytes) : List (Bytes × Bytes) :=
  match cut 63 target with
  | none => []
  | some (_, query) => (query.splitOn 38).filterMap (cut 61)

def device (target : Bytes) : Bytes := (last (ascii "device") (params target)).getD (ascii "PC")

/-- The target says that it comes from user `u`, with a token that is what
`HGet` reads: the stored value up to its first NUL. -/
def Proves (r : Redis) (target : Bytes) (u : ℤ) : Prop :=
  (last (ascii "id") (params target)).bind stoll = some u ∧
    ∃ stored, last (ascii "token") (params target) = some (cString stored) ∧ cString stored ≠ [] ∧
      r.hget (sessionKey u) (device target) = some stored

/-- The same with a token that is the whole value. -/
def ProvesWhole (r : Redis) (target : Bytes) (u : ℤ) : Prop :=
  (last (ascii "id") (params target)).bind stoll = some u ∧
    ∃ token, last (ascii "token") (params target) = some token ∧ token ≠ [] ∧
      r.hget (sessionKey u) (device target) = some token

variable {r : Redis} {target : Bytes} {q : Query}

section Parse

theorem parse_eq_params : parseTarget target = (params target).foldlM Query.set {} := by
  have hsegments : ∀ (segments : List Bytes) (q : Query),
      segments.foldlM parseSegment q = (segments.filterMap (cut 61)).foldlM Query.set q := by
    intro segments
    induction segments with
    | nil => exact fun _ ↦ rfl
    | cons segment segments ih =>
      intro q
      rw [List.foldlM_cons, List.filterMap_cons, parseSegment]
      cases hcut : cut 61 segment with
      | none => exact ih q
      | some p =>
        rw [List.foldlM_cons]
        exact congrArg _ (funext ih)
  rw [parseTarget, params]
  cases cut 63 target with
  | none => rfl
  | some p =>
    obtain ⟨path, query⟩ := p
    change (getlines 38 query).foldlM parseSegment {} =
      ((query.splitOn 38).filterMap (cut 61)).foldlM Query.set {}
    rcases splitOn_eq_getlines (d := 38) (s := query) with h | h
    · rw [h, hsegments]
    · -- the empty text behind a last `&` has no `=`
      rw [h, List.filterMap_append, hsegments]
      exact congrArg _ (List.append_nil _).symm

theorem set_isSome {p : Bytes × Bytes} :
    (q.set p).isSome ↔ (p.1 = ascii "id" → (stoll p.2).isSome) := by
  obtain ⟨key, val⟩ := p
  rw [Query.set]
  split_ifs with hid htoken hdevice
  · rw [Option.isSome_map]
    exact ⟨fun h _ ↦ h, fun h ↦ h hid⟩
  · exact ⟨fun _ h ↦ absurd h hid, fun _ ↦ rfl⟩
  · exact ⟨fun _ h ↦ absurd h hid, fun _ ↦ rfl⟩
  · exact ⟨fun _ h ↦ absurd h hid, fun _ ↦ rfl⟩

theorem foldlM_isSome {ps : List (Bytes × Bytes)} :
    (ps.foldlM Query.set q).isSome ↔
      ∀ val, (ascii "id", val) ∈ ps → (stoll val).isSome := by
  induction ps generalizing q with
  | nil => exact ⟨fun _ _ h ↦ absurd h List.not_mem_nil, fun _ ↦ rfl⟩
  | cons p ps ih =>
    have hall : (∀ val, (ascii "id", val) ∈ p :: ps → (stoll val).isSome) ↔
        (p.1 = ascii "id" → (stoll p.2).isSome) ∧ ∀ val, (ascii "id", val) ∈ ps → (stoll val).isSome := by
      constructor
      · intro h
        exact ⟨fun hp ↦ h p.2 (hp ▸ List.mem_cons_self), fun val hval ↦ h val (List.mem_cons_of_mem _ hval)⟩
      · intro h val hval
        obtain ⟨hp, hps⟩ := h
        rcases List.mem_cons.mp hval with rfl | hval
        · exact hp rfl
        · exact hps val hval
    rw [List.foldlM_cons, hall, ← set_isSome (q := q)]
    cases hset : q.set p with
    | none => simp
    | some q' => simpa using ih

/-- Each part of the query is the last value that the target gives for it. -/
theorem foldlM_eq {ps : List (Bytes × Bytes)} {q' : Query}
    (h : ps.foldlM Query.set q = some q') :
    some q'.userId = ((last (ascii "id") ps).map stoll).getD (some q.userId) ∧
      q'.token = (last (ascii "token") ps).getD q.token ∧
      q'.device = (last (ascii "device") ps).getD q.device := by
  induction ps using List.reverseRecOn generalizing q' with
  | nil =>
    obtain rfl := Option.some.inj h
    exact ⟨rfl, rfl, rfl⟩
  | append_singleton ps p ih =>
    obtain ⟨key, val⟩ := p
    rw [List.foldlM_append] at h
    obtain ⟨q₁, hps, hset⟩ := Option.bind_eq_some_iff.mp h
    obtain ⟨hid, htoken, hdevice⟩ := ih hps
    have hset : q₁.set (key, val) = some q' := by simpa using hset
    simp only [last_concat]
    rw [Query.set] at hset
    split_ifs at hset with hkey hkey hkey
    · obtain ⟨u, hu, rfl⟩ := Option.map_eq_some_iff.mp hset
      subst hkey
      exact ⟨by rw [if_pos rfl, Option.map_some, hu]; rfl, htoken, hdevice⟩
    · obtain rfl := Option.some.inj hset
      subst hkey
      exact ⟨hid, rfl, hdevice⟩
    · obtain rfl := Option.some.inj hset
      subst hkey
      exact ⟨hid, htoken, rfl⟩
    · obtain rfl := Option.some.inj hset
      rw [if_neg ‹_›, if_neg ‹_›, if_neg ‹_›]
      exact ⟨hid, htoken, hdevice⟩

theorem zero_not_mem_params (h : 0 ∉ target) {p : Bytes × Bytes} (hp : p ∈ params target) : 0 ∉ p.2 := by
  intro hzero
  rw [params] at hp
  cases hcut : cut 63 target with
  | none =>
    rw [hcut] at hp
    cases hp
  | some parts =>
    rw [hcut] at hp
    obtain ⟨segment, hsegment, hpcut⟩ := List.mem_filterMap.mp hp
    exact h (mem_of_mem_cut hcut (.inr (mem_of_mem_splitOn hsegment (mem_of_mem_cut hpcut (.inr hzero)))))

theorem zero_not_mem_device (h : 0 ∉ target) : 0 ∉ device target := by
  rw [device]
  cases hlast : last (ascii "device") (params target) with
  | none => decide
  | some d => exact zero_not_mem_params h (mem_of_last hlast)

end Parse

section Session

variable {u : ℤ}

theorem authenticate_eq (q : Query) : authenticate r q =
    if 0 < q.userId ∧ q.token ≠ [] ∧ r.hGet (sessionKey q.userId) q.device = q.token then q.userId else 0 := rfl

theorem hGet_eq {field : Bytes} (hfield : 0 ∉ field) :
    r.hGet (sessionKey u) field = cString ((r.hget (sessionKey u) field).getD []) := by
  rw [Redis.hGet, cString_eq_self zero_not_mem_sessionKey, cString_eq_self hfield]

theorem userId_eq_iff (hq : parseTarget target = some q) (hu : 0 < u) :
    q.userId = u ↔ (last (ascii "id") (params target)).bind stoll = some u := by
  rw [parse_eq_params] at hq
  obtain ⟨hid, -, -⟩ := foldlM_eq hq
  cases hlast : last (ascii "id") (params target) with
  | none =>
    rw [hlast] at hid
    have hzero : q.userId = 0 := Option.some.inj hid
    constructor
    · intro h
      omega
    · intro h
      cases h
  | some val =>
    rw [hlast] at hid
    have hval : some q.userId = stoll val := hid
    rw [Option.bind_some, ← hval, Option.some_inj]

theorem token_eq_iff (hq : parseTarget target = some q) {token : Bytes} (htoken : token ≠ []) :
    q.token = token ↔ last (ascii "token") (params target) = some token := by
  rw [parse_eq_params] at hq
  obtain ⟨-, hlast, -⟩ := foldlM_eq hq
  rw [hlast]
  cases last (ascii "token") (params target) with
  | none =>
    constructor
    · intro h
      exact absurd h.symm htoken
    · intro h
      cases h
  | some t => rw [Option.getD_some, Option.some_inj]

theorem device_eq (hq : parseTarget target = some q) : q.device = device target :=
  (foldlM_eq (parse_eq_params.symm.trans hq)).2.2

theorem authenticate_iff (htarget : 0 ∉ target) (hq : parseTarget target = some q) (hu : 0 < u) :
    authenticate r q = u ↔ Proves r target u := by
  have hread := fun v ↦ hGet_eq (r := r) (u := v) (zero_not_mem_device htarget)
  rw [authenticate_eq, device_eq hq, hread]
  constructor
  · intro h
    split_ifs at h with hok
    · subst h
      obtain ⟨-, hne, hget⟩ := hok
      cases hfield : r.hget (sessionKey q.userId) (device target) with
      | none =>
        rw [hfield] at hget
        exact absurd hget.symm hne
      | some stored =>
        rw [hfield] at hget
        have hstored : cString stored = q.token := hget
        exact ⟨(userId_eq_iff hq hu).mp rfl, stored, hstored ▸ (token_eq_iff hq hne).mp rfl, hstored ▸ hne,
          hfield⟩
    · exact absurd h hu.ne
  · intro h
    obtain ⟨hid, stored, htoken, hne, hget⟩ := h
    have huser := (userId_eq_iff hq hu).mpr hid
    rw [huser, (token_eq_iff hq hne).mpr htoken, if_pos]
    exact ⟨hu, hne, congrArg (fun value ↦ cString (value.getD [])) hget⟩

theorem authenticate_cases (q : Query) : authenticate r q = 0 ∨ 0 < authenticate r q := by
  rw [authenticate]
  split_ifs with h
  · exact .inr h.1
  · exact .inl rfl

end Session

section Connect

variable {uid : ℤ} {token dev : Bytes}

theorem params_connectTarget (htoken : 38 ∉ token) (hdev : 38 ∉ dev) :
    params (connectTarget uid token dev) =
      [(ascii "id", stdToString uid), (ascii "token", token), (ascii "device", dev)] := by
  have hquery : connectTarget uid token dev = ascii "/ws" ++ 63 ::
      (ascii "id" ++ 61 :: stdToString uid ++ 38 :: (ascii "token" ++ 61 :: token ++
        38 :: (ascii "device" ++ 61 :: dev))) := by
    simp only [connectTarget, List.append_assoc]
    rfl
  have hid : 38 ∉ ascii "id" ++ 61 :: stdToString uid := by
    rw [List.mem_append, List.mem_cons, not_or, not_or]
    exact ⟨by decide, by decide, not_mem_stdToString (by decide) (by decide) uid⟩
  have htoken' : 38 ∉ ascii "token" ++ 61 :: token := by
    rw [List.mem_append, List.mem_cons, not_or, not_or]
    exact ⟨by decide, by decide, htoken⟩
  have hdev' : 38 ∉ ascii "device" ++ 61 :: dev := by
    rw [List.mem_append, List.mem_cons, not_or, not_or]
    exact ⟨by decide, by decide, hdev⟩
  rw [params, hquery, cut_append (by decide)]
  change ((_ : Bytes).splitOn 38).filterMap (cut 61) = _
  rw [List.splitOn_append_cons_self_of_not_mem hid, List.splitOn_append_cons_self_of_not_mem htoken',
    List.splitOn_eq_singleton hdev']
  simp only [List.filterMap_cons, List.filterMap_nil, cut_append (show (61 : UInt8) ∉ ascii "id" by decide),
    cut_append (show (61 : UInt8) ∉ ascii "token" by decide),
    cut_append (show (61 : UInt8) ∉ ascii "device" by decide)]

/-- The target of the client proves who it is by the stored token alone. -/
theorem proves_connectTarget (hfits : FitsInt64 uid) (htoken : 38 ∉ token) (hne : token ≠ [])
    (hdev : 38 ∉ dev) :
    Proves r (connectTarget uid token dev) uid ↔
      ∃ stored, r.hget (sessionKey uid) dev = some stored ∧ cString stored = token := by
  have hparams : params (connectTarget uid token dev) =
      [(ascii "id", stdToString uid), (ascii "token", token), (ascii "device", dev)] :=
    params_connectTarget htoken hdev
  have hdevice : device (connectTarget uid token dev) = dev := by
    rw [device, hparams]
    rfl
  have hid : (last (ascii "id") (params (connectTarget uid token dev))).bind stoll = some uid := by
    rw [hparams]
    exact stoll_stdToString hfits
  have hlast : last (ascii "token") (params (connectTarget uid token dev)) = some token := by
    rw [hparams]
    rfl
  rw [Proves, hdevice, hlast]
  constructor
  · intro h
    obtain ⟨-, stored, heq, -, hget⟩ := h
    exact ⟨stored, hget, (Option.some.inj heq).symm⟩
  · intro h
    obtain ⟨stored, hget, rfl⟩ := h
    exact ⟨hid, stored, rfl, hne, hget⟩

end Connect

/-- An upgraded session belongs to user `u` exactly if its target proves it with
the stored token, and to user 0 otherwise. -/
theorem session_user_iff (r : Redis) :
    (∀ t : Target, (∀ val, (ascii "id", val) ∈ params t.text → (stoll val).isSome) →
      ∃ s, onRead r t.text = some s ∧ (∀ u, 0 < u → (s.userId = u ↔ Proves r t.text u)) ∧
        ((∀ u, 0 < u → ¬ Proves r t.text u) → s.userId = 0)) ∧
    ∀ (t : Target) (uid owner : ℤ) (now : ℕ) (dev : Bytes), 0 < uid → FitsInt64 uid → 38 ∉ dev →
      t.text = connectTarget uid (generateToken owner now) dev →
        ∃ s, onRead r t.text = some s ∧ (s.userId = uid ↔
          ∃ stored, r.hget (sessionKey uid) dev = some stored ∧ cString stored = generateToken owner now) := by
  have hsession : ∀ t : Target, (∀ val, (ascii "id", val) ∈ params t.text → (stoll val).isSome) →
      ∃ s, onRead r t.text = some s ∧ (∀ u, 0 < u → (s.userId = u ↔ Proves r t.text u)) ∧
        ((∀ u, 0 < u → ¬ Proves r t.text u) → s.userId = 0) := by
    intro t hids
    obtain ⟨q, hq⟩ := Option.isSome_iff_exists.mp (foldlM_isSome (q := {}).mpr hids)
    rw [← parse_eq_params] at hq
    have hiff := fun u hu ↦ authenticate_iff (r := r) (u := u) t.noNul hq hu
    refine ⟨⟨authenticate r q, q.device⟩, by rw [onRead, hq]; rfl, hiff, ?_⟩
    intro hnone
    rcases authenticate_cases q with h | h
    · exact h
    · exact absurd ((hiff _ h).mp rfl) (hnone _ h)
  refine ⟨hsession, ?_⟩
  intro t uid owner now dev huid hfits hdev htext
  have htoken := not_mem_generateToken (b := 38) (by decide) (by decide) (by decide) owner now
  have hne : generateToken owner now ≠ [] := List.cons_ne_nil _ _
  obtain ⟨s, hs, hiff, -⟩ := hsession t (by
    intro val hval
    rw [htext, params_connectTarget htoken hdev] at hval
    simp only [List.mem_cons, Prod.mk.injEq, List.not_mem_nil, or_false] at hval
    rcases hval with ⟨-, rfl⟩ | ⟨h, -⟩ | ⟨h, -⟩
    · rw [stoll_stdToString hfits]
      rfl
    · exact absurd h (by decide)
    · exact absurd h (by decide))
  refine ⟨s, hs, ?_⟩
  rw [hiff uid huid, htext]
  exact proves_connectTarget hfits htoken hne hdev

theorem session_user_seven :
    ∃ s, onRead (Redis.empty.hset (sessionKey 7) (ascii "PC") (generateToken 7 5))
      (connectTarget 7 (generateToken 7 5) (ascii "PC")) = some s ∧ s.userId = 7 := by
  have hzero : 0 ∉ generateToken 7 5 := not_mem_generateToken (by decide) (by decide) (by decide) 7 5
  have hnul : 0 ∉ connectTarget 7 (generateToken 7 5) (ascii "PC") := by
    simp only [connectTarget, List.mem_append, not_or]
    exact ⟨⟨⟨⟨⟨⟨by decide, by decide⟩, not_mem_stdToString (by decide) (by decide) 7⟩, by decide⟩, hzero⟩,
      by decide⟩, by decide⟩
  obtain ⟨s, hs, hiff⟩ := (session_user_iff _).2 ⟨_, hnul⟩ 7 7 5 (ascii "PC") (by decide)
    (by decide) (by decide) rfl
  exact ⟨s, hs, hiff.mpr ⟨_, Redis.hget_hset_same _ _ _, cString_eq_self hzero⟩⟩

/-- A value that another client of Redis has stored is accepted up to its NUL. -/
theorem not_proves_whole :
    ¬ ∀ (r : Redis) (t : Target), (∀ val, (ascii "id", val) ∈ params t.text → (stoll val).isSome) →
      ∃ s, onRead r t.text = some s ∧ ∀ u, 0 < u → (s.userId = u ↔ ProvesWhole r t.text u) := by
  intro h
  obtain ⟨s, hs, hiff⟩ := h (Redis.empty.hset (sessionKey 7) (ascii "PC") [97, 0, 98])
    ⟨ascii "/ws?id=7&token=a", by decide⟩ (foldlM_isSome (q := {}).mp rfl)
  have hsession : onRead (Redis.empty.hset (sessionKey 7) (ascii "PC") [97, 0, 98])
      (ascii "/ws?id=7&token=a") = some ⟨7, ascii "PC"⟩ := by decide +kernel
  obtain rfl := Option.some.inj (hs.symm.trans hsession)
  obtain ⟨-, token, htoken, -, hget⟩ := (hiff 7 (by decide)).mp rfl
  obtain rfl : [97, 0, 98] = token := Option.some.inj ((Redis.hget_hset_same _ _ _).symm.trans hget)
  exact absurd htoken (by decide +kernel)

/-- `onRead` returns exactly if each `id` starts with a number of 64 bits. -/
theorem onRead_returns_iff (r : Redis) (target : Bytes) :
    (onRead r target).isSome ↔ ∀ val, (ascii "id", val) ∈ params target → StartsWithInt64 val := by
  rw [onRead, Option.isSome_map, parse_eq_params, foldlM_isSome]
  exact forall_congr' fun val ↦ imp_congr_right fun _ ↦ stoll_isSome_iff

theorem throws_on_letters :
    ¬ ∀ (r : Redis) (t : Target), (onRead r t.text).isSome := by
  intro h
  exact absurd (h Redis.empty ⟨ascii "/ws?id=abc", by decide⟩) (by decide)

end TinyIM.Auth.Handshake

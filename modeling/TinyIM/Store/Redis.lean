import Mathlib.Data.List.AList
import TinyIM.Library.Delimited

namespace TinyIM.Store

open Library.ByteOrder Library.Delimited

/-- The part of a Redis server that the services use: hashes and counters. A
key exists when its hash has a field. -/
structure Redis where
  hashes : Bytes → AList fun _ : Bytes ↦ Bytes
  counters : Bytes → ℕ

namespace Redis

def empty : Redis := ⟨fun _ ↦ ∅, fun _ ↦ 0⟩

variable (r : Redis)

def hset (key field value : Bytes) : Redis :=
  { r with hashes := Function.update r.hashes key ((r.hashes key).insert field value) }

def hdel (key field : Bytes) : Redis :=
  { r with hashes := Function.update r.hashes key ((r.hashes key).erase field) }

def del (key : Bytes) : Redis := { r with hashes := Function.update r.hashes key ∅ }

def hget (key field : Bytes) : Option Bytes := (r.hashes key).lookup field

def hgetall (key : Bytes) : List (Bytes × Bytes) := (r.hashes key).entries.map fun e ↦ (e.1, e.2)

def exists? (key : Bytes) : Bool := !(r.hashes key).entries.isEmpty

def incr (key : Bytes) : Redis × ℕ :=
  ({ r with counters := Function.update r.counters key (r.counters key + 1) }, r.counters key + 1)

/-- `RedisClient` hands C strings to Redis, and reads a reply as one. -/
def hGet (key field : Bytes) : Bytes := cString ((r.hget (cString key) (cString field)).getD [])

def hSet (key field value : Bytes) : Redis := r.hset (cString key) (cString field) (cString value)

def hDel (key field : Bytes) : Redis := r.hdel (cString key) (cString field)

variable {r}

@[simp] theorem hget_hset_same (key field value : Bytes) :
    (r.hset key field value).hget key field = some value := by
  simp [hget, hset]

theorem hget_hset_of_ne {key field key' field' : Bytes} (value : Bytes)
    (h : key' ≠ key ∨ field' ≠ field) :
    (r.hset key field value).hget key' field' = r.hget key' field' := by
  by_cases hkey : key' = key
  · subst hkey
    have hfield : field' ≠ field := h.resolve_left fun hne ↦ hne rfl
    simp [hget, hset, AList.lookup_insert_ne hfield]
  · simp [hget, hset, Function.update_of_ne hkey]

theorem hget_hdel_of_ne {key field key' field' : Bytes} (h : key' ≠ key ∨ field' ≠ field) :
    (r.hdel key field).hget key' field' = r.hget key' field' := by
  by_cases hkey : key' = key
  · subst hkey
    have hfield : field' ≠ field := h.resolve_left fun hne ↦ hne rfl
    simp [hget, hdel, AList.lookup_erase_ne hfield]
  · simp [hget, hdel, Function.update_of_ne hkey]

@[simp] theorem hget_hdel_same (key field : Bytes) : (r.hdel key field).hget key field = none := by
  simp [hget, hdel]

@[simp] theorem hget_del_same (key field : Bytes) : (r.del key).hget key field = none := by
  simp [hget, del]

theorem hget_del_of_ne {key key' : Bytes} (field : Bytes) (h : key' ≠ key) :
    (r.del key).hget key' field = r.hget key' field := by
  simp [hget, del, Function.update_of_ne h]

theorem hget_hset (key field value key' field' : Bytes) :
    (r.hset key field value).hget key' field' =
      if key' = key ∧ field' = field then some value else r.hget key' field' := by
  split_ifs with h
  · obtain ⟨rfl, rfl⟩ := h
    exact hget_hset_same _ _ _
  · exact hget_hset_of_ne value (not_and_or.mp h)

theorem mem_hgetall {key field value : Bytes} :
    (field, value) ∈ r.hgetall key ↔ r.hget key field = some value := by
  rw [hget, ← Option.mem_def, AList.mem_lookup_iff, hgetall, List.mem_map]
  constructor
  · intro hcase
    obtain ⟨⟨f, v⟩, hentry, heq⟩ := hcase
    obtain ⟨rfl, rfl⟩ := Prod.mk.inj heq
    exact hentry
  · intro hentry
    exact ⟨⟨field, value⟩, hentry, rfl⟩

theorem hgetall_nodup (key : Bytes) : (r.hgetall key).Nodup := by
  refine (r.hashes key).nodupKeys.nodup.map ?_
  intro x y h
  obtain ⟨f, v⟩ := x
  obtain ⟨f', v'⟩ := y
  obtain ⟨rfl, rfl⟩ := Prod.mk.inj h
  rfl

end Redis

end TinyIM.Store

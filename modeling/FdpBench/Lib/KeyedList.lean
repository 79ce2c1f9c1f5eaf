import Mathlib.Data.List.Nodup
import Mathlib.Data.Nat.ModEq

/-!
# Tables of keyed records

A list of records that carry their own key, with `find`, `overwrite`, `overwriteAll` and `erase`.
Overwriting never changes the keys, so distinct keys stay distinct.  `atCyclic` reads a position
counted around the end, and up to a table's length of consecutive positions hold distinct records.
-/

namespace KeyedList

/-- The record at `position`, counting around the end of the table. -/
def atCyclic {α : Type} (records : List α) (nonempty : records ≠ []) (position : Nat) : α :=
  records.get ⟨position % records.length, Nat.mod_lt _ (List.length_pos_iff.mpr nonempty)⟩

theorem atCyclic_mem {α : Type} (records : List α) (nonempty : records ≠ []) (position : Nat) :
    atCyclic records nonempty position ∈ records :=
  List.get_mem _ _

/-- At most a table's length of consecutive positions, counted around its end, hold records with
distinct keys. -/
theorem nodup_map_atCyclic {α κ : Type} {key : α → κ} {records : List α}
    (distinct : (records.map key).Nodup) (nonempty : records ≠ []) (start : Nat) {count : Nat} (short : count ≤ records.length) :
    ((List.range count).map fun i => key (atCyclic records nonempty (start + i))).Nodup := by
  apply List.nodup_range.map_on
  intro i i_mem j j_mem same_key
  have same_record : atCyclic records nonempty (start + i) = atCyclic records nonempty (start + j) :=
    List.inj_on_of_nodup_map distinct (atCyclic_mem _ _ _) (atCyclic_mem _ _ _) same_key
  have same_position : (start + i) % records.length = (start + j) % records.length :=
    Fin.val_eq_of_eq ((distinct.of_map key).get_inj_iff.mp same_record)
  have offsets : Nat.ModEq records.length i j := Nat.ModEq.add_left_cancel' start same_position
  rw [List.mem_range] at i_mem j_mem
  rw [Nat.ModEq, Nat.mod_eq_of_lt (by omega), Nat.mod_eq_of_lt (by omega)] at offsets
  exact offsets

variable {α κ : Type} [DecidableEq κ] (key : α → κ)

/-- The first record with key `k`. -/
def find (records : List α) (k : κ) : Option α :=
  records.find? fun record => key record = k

/-- Every record with `record`'s key replaced by `record`. -/
def overwrite (records : List α) (record : α) : List α :=
  records.map fun old => if key old = key record then record else old

/-- `overwrite` with each of `updates`, in order. -/
def overwriteAll (records updates : List α) : List α :=
  updates.foldl (overwrite key) records

/-- The records whose key is not `k`. -/
def erase (records : List α) (k : κ) : List α :=
  records.filter fun record => key record ≠ k

/-- A map's `insert`: `record` in place of any record with its key. -/
def insert (records : List α) (record : α) : List α :=
  erase key records (key record) ++ [record]

variable {key}

theorem find_eq_some {records : List α} {k : κ} {record : α}
    (found : find key records k = some record) : record ∈ records ∧ key record = k := by
  unfold find at found
  have key_matches : key record = k := by simpa using List.find?_some found
  exact ⟨List.mem_of_find?_eq_some found, key_matches⟩

theorem mem_overwrite {records : List α} {record other : α}
    (member : other ∈ overwrite key records record) : other = record ∨ other ∈ records := by
  obtain ⟨old, old_member, rfl⟩ := List.mem_map.mp member
  by_cases same : key old = key record
  · left
    simp [same]
  · right
    simpa [same] using old_member

@[simp]
theorem map_overwrite (records : List α) (record : α) :
    (overwrite key records record).map key = records.map key := by
  unfold overwrite
  rw [List.map_map]
  apply List.map_congr_left
  intro old _
  by_cases same : key old = key record
  · simp [same]
  · simp [same]

theorem mem_overwriteAll {records updates : List α} {other : α}
    (member : other ∈ overwriteAll key records updates) : other ∈ updates ∨ other ∈ records := by
  induction updates generalizing records with
  | nil => exact Or.inr member
  | cons update rest induction =>
      rcases induction member with written | kept
      · exact Or.inl (List.mem_cons_of_mem _ written)
      · rcases mem_overwrite kept with rfl | old
        · exact Or.inl List.mem_cons_self
        · exact Or.inr old

@[simp]
theorem map_overwriteAll (records updates : List α) :
    (overwriteAll key records updates).map key = records.map key := by
  induction updates generalizing records with
  | nil => rfl
  | cons update rest induction =>
      rw [overwriteAll, List.foldl_cons, ← overwriteAll, induction, map_overwrite]

theorem mem_erase {records : List α} {k : κ} {record : α} :
    record ∈ erase key records k ↔ record ∈ records ∧ key record ≠ k := by
  simp [erase]

theorem nodup_map_erase {records : List α} (distinct : (records.map key).Nodup) (k : κ) :
    ((erase key records k).map key).Nodup :=
  distinct.sublist (List.filter_sublist.map key)

theorem mem_insert {records : List α} {record other : α} :
    other ∈ insert key records record ↔
      other = record ∨ (other ∈ records ∧ key other ≠ key record) := by
  rw [insert, List.mem_append, mem_erase, List.mem_singleton, or_comm]

theorem nodup_map_insert {records : List α} (distinct : (records.map key).Nodup) (record : α) :
    ((insert key records record).map key).Nodup := by
  have kept := nodup_map_erase distinct (key record)
  have absent : key record ∉ (erase key records (key record)).map key := by
    intro member
    obtain ⟨other, other_member, same⟩ := List.mem_map.mp member
    exact (mem_erase.mp other_member).2 same
  rw [insert, List.map_append, List.map_singleton, List.nodup_append]
  refine ⟨kept, List.nodup_singleton _, ?_⟩
  intro k member k' member' same
  rw [List.mem_singleton.mp member'] at same
  exact absent (same ▸ member)

/-- A property of every record survives overwriting with records that have it. -/
theorem forall_overwriteAll {holds : α → Prop} {records updates : List α}
    (old : ∀ record ∈ records, holds record) (new : ∀ record ∈ updates, holds record) :
    ∀ record ∈ overwriteAll key records updates, holds record := by
  intro record member
  rcases mem_overwriteAll member with written | kept
  · exact new record written
  · exact old record kept

end KeyedList

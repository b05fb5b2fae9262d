import OpenADA.Library.InsertionDict
import Mathlib.Data.List.Sort

/-! Two lists of items that are compared by their keys: the keys of both, and the keys of one
only. -/
namespace KeyedPartition

variable {α κ : Type} [DecidableEq κ]

/-- The comprehension that stores each item under its key; of items with one key the last stays. -/
def byKey (key : α → κ) (items : List α) : InsertionDict κ α :=
  InsertionDict.ofList (items.map fun a => (key a, a))

def stored (d : InsertionDict κ α) (keys : List κ) : List α := keys.filterMap d.get?

variable {key : α → κ} {items : List α}

theorem mem_keys_byKey {k : κ} : k ∈ (byKey key items).keys ↔ k ∈ items.map key := by
  rw [byKey, InsertionDict.ofList, InsertionDict.mem_keys_foldl_set, InsertionDict.keys_empty,
    List.map_map]
  simp

theorem stored_keys (d : InsertionDict κ α) : stored d d.keys = d.entries.map Prod.snd := by
  have hall (entries : List (κ × α)) (hentries : entries ⊆ d.entries) :
      (entries.map Prod.fst).filterMap d.get? = entries.map Prod.snd := by
    induction entries with
    | nil => rfl
    | cons entry rest ih =>
      obtain ⟨hentry, hrest⟩ := List.cons_subset.mp hentries
      rw [List.map_cons, List.filterMap_cons_some (InsertionDict.get?_eq_some_iff.mpr hentry),
        ih hrest, List.map_cons]
  exact hall d.entries (List.Subset.refl _)

/-- The stored items under keys that are split in two are the stored items. -/
theorem stored_partition {d : InsertionDict κ α} {p : κ → Bool} {both only : List κ}
    (hboth : both.Perm (d.keys.filter p)) (honly : only.Perm (d.keys.filter fun k => !p k)) :
    (stored d both ++ stored d only).Perm (d.entries.map Prod.snd) := by
  rw [← stored_keys, stored, stored, ← List.filterMap_append]
  exact ((hboth.append honly).trans (List.filter_append_perm p d.keys)).filterMap _

theorem entries_byKey_perm :
    ((byKey key items).entries.map Prod.snd).Perm items ↔ (items.map key).Nodup := by
  constructor
  · intro h
    have hlength : (byKey key items).keys.length = (items.map key).length := by
      rw [InsertionDict.keys, List.length_map, List.length_map, ← h.length_eq, List.length_map]
    have hsubperm : (byKey key items).keys.Subperm (items.map key) :=
      (byKey key items).keys_nodup.subperm fun k hk => mem_keys_byKey.mp hk
    exact (hsubperm.perm_of_length_le hlength.ge).nodup_iff.mp (byKey key items).keys_nodup
  · intro h
    have hentries : (byKey key items).entries = items.map fun a => (key a, a) :=
      InsertionDict.entries_ofList (by rwa [List.map_map])
    rw [hentries, List.map_map]
    exact (List.map_id items).symm ▸ List.Perm.refl _

end KeyedPartition

import Mathlib.Data.List.Nodup
import Mathlib.Tactic

/-! Insertion-ordered dictionaries: assigning an existing key keeps its position. -/

structure InsertionDict (κ ν : Type) [DecidableEq κ] where
  entries : List (κ × ν)
  nodup : (entries.map Prod.fst).Nodup

namespace InsertionDict

variable {κ ν : Type} [DecidableEq κ]

def keys (d : InsertionDict κ ν) : List κ := d.entries.map Prod.fst

def get? (d : InsertionDict κ ν) (k : κ) : Option ν := d.entries.lookup k

def empty : InsertionDict κ ν := ⟨[], List.nodup_nil⟩

def setEntries (k : κ) (v : ν) : List (κ × ν) → List (κ × ν)
  | [] => [(k, v)]
  | (k', v') :: rest => if k' = k then (k', v) :: rest else (k', v') :: setEntries k v rest

theorem keys_setEntries (k : κ) (v : ν) (entries : List (κ × ν)) :
    (setEntries k v entries).map Prod.fst =
      if k ∈ entries.map Prod.fst then entries.map Prod.fst else entries.map Prod.fst ++ [k] := by
  induction entries with
  | nil => simp [setEntries]
  | cons e rest ih =>
    obtain ⟨k', v'⟩ := e
    by_cases hk : k' = k
    · subst hk
      simp [setEntries]
    · have hk' : ¬ k = k' := fun h => hk h.symm
      simp only [setEntries, hk, if_false, List.map_cons, ih, List.mem_cons, hk', false_or]
      split_ifs <;> simp

/-- Assignment `d[k] = v`. -/
def set (d : InsertionDict κ ν) (k : κ) (v : ν) : InsertionDict κ ν where
  entries := setEntries k v d.entries
  nodup := by
    rw [keys_setEntries]
    split_ifs with h
    · exact d.nodup
    · exact List.Nodup.append d.nodup (List.nodup_singleton k) (by simpa using h)

/-- Removal `d.pop(k, None)`. -/
def erase (d : InsertionDict κ ν) (k : κ) : InsertionDict κ ν where
  entries := d.entries.filter fun e => decide (e.1 ≠ k)
  nodup := d.nodup.sublist (List.Sublist.map _ List.filter_sublist)

/-- `d.setdefault(k, fallback)` followed by an in-place change of the stored value. -/
def modify (d : InsertionDict κ ν) (k : κ) (fallback : ν) (f : ν → ν) : InsertionDict κ ν :=
  d.set k (f ((d.get? k).getD fallback))

/-- The comprehension `{k: v for ...}`: the last value of a repeated key wins. -/
def ofList (items : List (κ × ν)) : InsertionDict κ ν :=
  items.foldl (fun acc item => acc.set item.1 item.2) empty

/-- Python's `==` of two dictionaries, which ignores insertion order. -/
def sameAs [DecidableEq ν] (d e : InsertionDict κ ν) : Bool :=
  decide (d.entries.length = e.entries.length) &&
    d.entries.all fun entry => decide (e.get? entry.1 = some entry.2)

@[simp] theorem get?_empty (k : κ) : (empty : InsertionDict κ ν).get? k = none := rfl

@[simp] theorem keys_empty : (empty : InsertionDict κ ν).keys = [] := rfl

theorem keys_nodup (d : InsertionDict κ ν) : d.keys.Nodup := d.nodup

theorem lookup_setEntries (k k' : κ) (v : ν) (entries : List (κ × ν)) :
    (setEntries k v entries).lookup k' = if k' = k then some v else entries.lookup k' := by
  induction entries with
  | nil =>
    by_cases h : k' = k
    · simp [setEntries, h]
    · have hb : (k' == k) = false := by simpa using h
      simp [setEntries, List.lookup_cons, h, hb]
  | cons e rest ih =>
    obtain ⟨k0, v0⟩ := e
    by_cases hk : k0 = k
    · subst hk
      by_cases h : k' = k0
      · simp [setEntries, h]
      · have hb : (k' == k0) = false := by simpa using h
        simp [setEntries, List.lookup_cons, h, hb]
    · by_cases h0 : k' = k0
      · subst h0
        simp [setEntries, hk]
      · have hb : (k' == k0) = false := by simpa using h0
        simp only [setEntries, hk, if_false, List.lookup_cons, ih, hb]

@[simp] theorem get?_set (d : InsertionDict κ ν) (k k' : κ) (v : ν) :
    (d.set k v).get? k' = if k' = k then some v else d.get? k' :=
  lookup_setEntries k k' v d.entries

theorem get?_set_self (d : InsertionDict κ ν) (k : κ) (v : ν) : (d.set k v).get? k = some v := by
  simp

theorem get?_set_of_ne (d : InsertionDict κ ν) {k k' : κ} (v : ν) (h : k' ≠ k) :
    (d.set k v).get? k' = d.get? k' := by
  simp [h]

theorem keys_set (d : InsertionDict κ ν) (k : κ) (v : ν) :
    (d.set k v).keys = if k ∈ d.keys then d.keys else d.keys ++ [k] :=
  keys_setEntries k v d.entries

theorem mem_keys_set {d : InsertionDict κ ν} {k k' : κ} {v : ν} :
    k' ∈ (d.set k v).keys ↔ k' = k ∨ k' ∈ d.keys := by
  rw [keys_set]
  split_ifs with h
  · constructor
    · exact Or.inr
    · rintro (rfl | hk)
      · exact h
      · exact hk
  · simp [or_comm]

theorem lookup_eq_some_iff {entries : List (κ × ν)} (hn : (entries.map Prod.fst).Nodup)
    {k : κ} {v : ν} : entries.lookup k = some v ↔ (k, v) ∈ entries := by
  induction entries with
  | nil => simp
  | cons e rest ih =>
    obtain ⟨k0, v0⟩ := e
    have hn' := List.nodup_cons.mp hn
    by_cases h : k = k0
    · subst h
      have hnot : (k, v) ∉ rest := fun hm => hn'.1 (List.mem_map.mpr ⟨_, hm, rfl⟩)
      simp only [List.lookup_cons_self, Option.some.injEq, List.mem_cons, Prod.mk.injEq, true_and,
        hnot, or_false]
      exact eq_comm
    · have hb : (k == k0) = false := by simpa using h
      simp only [List.lookup_cons, hb, List.mem_cons, Prod.mk.injEq, h, false_and, false_or]
      exact ih hn'.2

theorem get?_eq_some_iff {d : InsertionDict κ ν} {k : κ} {v : ν} :
    d.get? k = some v ↔ (k, v) ∈ d.entries := lookup_eq_some_iff d.nodup

theorem get?_eq_none_iff {d : InsertionDict κ ν} {k : κ} : d.get? k = none ↔ k ∉ d.keys := by
  unfold get? keys
  rw [List.lookup_eq_none_iff]
  constructor
  · intro h hm
    obtain ⟨e, he, rfl⟩ := List.mem_map.mp hm
    simpa using h e he
  · intro h e he
    have hne : k ≠ e.1 := fun hk => h (hk ▸ List.mem_map_of_mem he)
    simpa using hne

theorem mem_keys_iff {d : InsertionDict κ ν} {k : κ} : k ∈ d.keys ↔ ∃ v, d.get? k = some v := by
  rw [← Option.isSome_iff_exists, ← Option.not_isNone, Bool.not_eq_true', ← Bool.not_eq_true,
    Option.isNone_iff_eq_none, get?_eq_none_iff, not_not]

theorem get?_eq_of_sameAs [DecidableEq ν] {d e : InsertionDict κ ν} (h : d.sameAs e = true) (k : κ) :
    d.get? k = e.get? k := by
  rw [sameAs, Bool.and_eq_true, decide_eq_true_eq, List.all_eq_true] at h
  obtain ⟨hlength, hall⟩ := h
  have hvalues {k : κ} {v : ν} (hk : d.get? k = some v) : e.get? k = some v :=
    of_decide_eq_true (hall _ (get?_eq_some_iff.mp hk))
  have hkeys : d.keys ⊆ e.keys := by
    intro k hk
    obtain ⟨v, hv⟩ := mem_keys_iff.mp hk
    exact mem_keys_iff.mpr ⟨v, hvalues hv⟩
  have hperm : d.keys.Perm e.keys := by
    refine (List.subperm_of_subset d.keys_nodup hkeys).perm_of_length_le ?_
    rw [keys, keys, List.length_map, List.length_map, hlength]
  cases hd : d.get? k with
  | some v => exact (hvalues hd).symm
  | none =>
    rw [get?_eq_none_iff, hperm.mem_iff] at hd
    exact (get?_eq_none_iff.mpr hd).symm

@[simp] theorem get?_erase (d : InsertionDict κ ν) (k k' : κ) :
    (d.erase k).get? k' = if k' = k then none else d.get? k' := by
  by_cases h : k' = k
  · subst h
    simp only [if_true, get?_eq_none_iff, keys, erase, List.mem_map, List.mem_filter,
      decide_eq_true_eq]
    rintro ⟨e, he, rfl⟩
    exact he.2 rfl
  · rw [if_neg h]
    cases hget : d.get? k' with
    | none =>
      rw [get?_eq_none_iff] at hget ⊢
      intro hm
      obtain ⟨e, he, rfl⟩ := List.mem_map.mp hm
      exact hget (List.mem_map_of_mem (List.mem_filter.mp he).1)
    | some v =>
      rw [get?_eq_some_iff] at hget ⊢
      exact List.mem_filter.mpr ⟨hget, by simpa using h⟩

theorem setEntries_of_notMem {k : κ} {v : ν} {entries : List (κ × ν)}
    (h : k ∉ entries.map Prod.fst) : setEntries k v entries = entries ++ [(k, v)] := by
  induction entries with
  | nil => rfl
  | cons e rest ih =>
    obtain ⟨k', v'⟩ := e
    simp only [List.map_cons, List.mem_cons, not_or] at h
    simp [setEntries, Ne.symm h.1, ih h.2]

theorem entries_set_of_notMem {d : InsertionDict κ ν} {k : κ} (v : ν) (h : k ∉ d.keys) :
    (d.set k v).entries = d.entries ++ [(k, v)] :=
  setEntries_of_notMem h

theorem entries_foldl_set {items : List (κ × ν)} {d : InsertionDict κ ν}
    (hn : (d.keys ++ items.map Prod.fst).Nodup) :
    (items.foldl (fun acc item => acc.set item.1 item.2) d).entries = d.entries ++ items := by
  induction items generalizing d with
  | nil => simp
  | cons item rest ih =>
    have hfresh : item.1 ∉ d.keys := by
      intro hm
      exact (List.nodup_append.mp hn).2.2 _ hm _ (by simp) rfl
    have hnext : ((d.set item.1 item.2).keys ++ rest.map Prod.fst).Nodup := by
      rw [keys_set, if_neg hfresh]
      simpa using hn
    rw [List.foldl_cons, ih hnext, entries_set_of_notMem _ hfresh]
    simp

theorem entries_ofList {items : List (κ × ν)} (hn : (items.map Prod.fst).Nodup) :
    (ofList items).entries = items := by
  unfold ofList
  rw [entries_foldl_set (by simpa using hn)]
  rfl

theorem get?_ofList {items : List (κ × ν)} (hn : (items.map Prod.fst).Nodup) {k : κ} {v : ν} :
    (ofList items).get? k = some v ↔ (k, v) ∈ items := by
  rw [get?_eq_some_iff, entries_ofList hn]

theorem get?_foldl_set {items : List (κ × ν)} {d : InsertionDict κ ν} {k : κ} {v : ν}
    (h : ∀ item ∈ items, item.1 = k → item.2 = v) :
    (items.foldl (fun acc item => acc.set item.1 item.2) d).get? k =
      if k ∈ items.map Prod.fst then some v else d.get? k := by
  induction items generalizing d with
  | nil => rfl
  | cons item rest ih =>
    have hrest : ∀ e ∈ rest, e.1 = k → e.2 = v := fun e he => h e (List.mem_cons_of_mem _ he)
    rw [List.foldl_cons, ih hrest, get?_set, List.map_cons]
    by_cases hmem : k ∈ rest.map Prod.fst
    · rw [if_pos hmem, if_pos (List.mem_cons_of_mem _ hmem)]
    · rw [if_neg hmem]
      by_cases hkey : k = item.1
      · rw [if_pos hkey, if_pos (hkey ▸ List.mem_cons_self), h item List.mem_cons_self hkey.symm]
      · rw [if_neg hkey, if_neg (by simp [hkey, hmem])]

theorem get?_ofList_of_agree {items : List (κ × ν)} {k : κ} {v : ν}
    (h : ∀ item ∈ items, item.1 = k → item.2 = v) :
    (ofList items).get? k = if k ∈ items.map Prod.fst then some v else none := by
  unfold ofList
  rw [get?_foldl_set h, get?_empty]

theorem mem_of_get?_foldl_set {items : List (κ × ν)} {d : InsertionDict κ ν} {k : κ} {v : ν}
    (h : (items.foldl (fun acc item => acc.set item.1 item.2) d).get? k = some v) :
    (k, v) ∈ items ∨ d.get? k = some v := by
  induction items generalizing d with
  | nil => exact .inr h
  | cons item rest ih =>
    rcases ih h with hrest | hset
    · exact .inl (List.mem_cons_of_mem _ hrest)
    · rw [get?_set] at hset
      by_cases hkey : k = item.1
      · rw [if_pos hkey] at hset
        obtain rfl := Option.some.inj hset
        exact .inl (hkey ▸ List.mem_cons_self)
      · rw [if_neg hkey] at hset
        exact .inr hset

theorem mem_of_get?_ofList {items : List (κ × ν)} {k : κ} {v : ν}
    (h : (ofList items).get? k = some v) : (k, v) ∈ items := by
  rcases mem_of_get?_foldl_set h with hmem | hempty
  · exact hmem
  · rw [get?_empty] at hempty
    cases hempty

theorem mem_keys_foldl_set {items : List (κ × ν)} {d : InsertionDict κ ν} {k : κ} :
    k ∈ (items.foldl (fun acc item => acc.set item.1 item.2) d).keys ↔
      k ∈ items.map Prod.fst ∨ k ∈ d.keys := by
  induction items generalizing d with
  | nil => simp
  | cons item rest ih =>
    rw [List.foldl_cons, ih, mem_keys_set, List.map_cons, List.mem_cons]
    tauto

theorem ext {d e : InsertionDict κ ν} (h : d.entries = e.entries) : d = e := by
  obtain ⟨entries, _⟩ := d
  obtain ⟨_, _⟩ := e
  simp only at h
  subst h
  rfl

theorem ofList_entries (d : InsertionDict κ ν) : ofList d.entries = d :=
  ext (entries_ofList d.nodup)

def leading (first : List κ) (d : InsertionDict κ ν) : InsertionDict κ ν :=
  ofList ((first ++ d.keys).filterMap fun key => (d.get? key).map fun value => (key, value))

@[simp] theorem get?_leading (first : List κ) (d : InsertionDict κ ν) (k : κ) :
    (d.leading first).get? k = d.get? k := by
  unfold leading
  cases hk : d.get? k with
  | none =>
    rw [get?_eq_none_iff, mem_keys_iff]
    rintro ⟨v, hv⟩
    obtain ⟨key, -, hkey⟩ := List.mem_filterMap.mp (mem_of_get?_ofList hv)
    obtain ⟨value, hvalue, hpair⟩ := Option.map_eq_some_iff.mp hkey
    obtain ⟨rfl, -⟩ := Prod.mk.inj hpair
    rw [hk] at hvalue
    exact nomatch hvalue
  | some v =>
    have hagree : ∀ item ∈ (first ++ d.keys).filterMap
        (fun key => (d.get? key).map fun value => (key, value)), item.1 = k → item.2 = v := by
      intro item hitem hkey
      obtain ⟨key, -, hfound⟩ := List.mem_filterMap.mp hitem
      obtain ⟨value, hvalue, rfl⟩ := Option.map_eq_some_iff.mp hfound
      obtain rfl : key = k := hkey
      exact Option.some.inj (hvalue.symm.trans hk)
    rw [get?_ofList_of_agree hagree, if_pos]
    refine List.mem_map.mpr ⟨(k, v), List.mem_filterMap.mpr ⟨k, ?_, by rw [hk]; rfl⟩, rfl⟩
    exact List.mem_append_right _ (mem_keys_iff.mpr ⟨v, hk⟩)

def mapValues {μ : Type} (f : κ → ν → μ) (d : InsertionDict κ ν) : InsertionDict κ μ where
  entries := d.entries.map fun e => (e.1, f e.1 e.2)
  nodup := by
    have h := d.nodup
    simpa [List.map_map, Function.comp_def] using h

theorem ofList_map_entries {μ : Type} (f : κ → ν → μ) (d : InsertionDict κ ν) :
    ofList (d.entries.map fun e => (e.1, f e.1 e.2)) = d.mapValues f :=
  ext (entries_ofList (d.mapValues f).nodup)

theorem keys_mapValues {μ : Type} (f : κ → ν → μ) (d : InsertionDict κ ν) :
    (d.mapValues f).keys = d.keys := by
  simp [keys, mapValues, List.map_map, Function.comp_def]

section Last

variable {α κ' : Type} [DecidableEq κ']

def lastWith (f : α → κ') (key : κ') (items : List α) : Option α :=
  (items.filter fun item => f item = key).getLast?

theorem lastWith_cons (f : α → κ') (key : κ') (item : α) (rest : List α) :
    lastWith f key (item :: rest) =
      (lastWith f key rest).or (if f item = key then some item else none) := by
  unfold lastWith
  by_cases h : f item = key
  · simp only [List.filter_cons, h, decide_true, if_true, List.getLast?_cons]
    cases (rest.filter fun item => f item = key).getLast? with
    | none => rfl
    | some last => rfl
  · simp [h]

theorem lastWith_append_singleton (f : α → κ') (key : κ') (items : List α) (item : α) :
    lastWith f key (items ++ [item]) = if f item = key then some item else lastWith f key items := by
  unfold lastWith
  rw [List.filter_append]
  by_cases h : f item = key
  · simp [h]
  · simp [h]

theorem lastWith_map {β : Type} (f : β → κ') (g : α → β) (key : κ') (items : List α) :
    lastWith f key (items.map g) = (lastWith (fun item => f (g item)) key items).map g := by
  unfold lastWith
  rw [List.filter_map, List.getLast?_map]
  rfl

theorem lastWith_eq_some_iff {f : α → κ'} {key : κ'} {items : List α} {item : α} :
    lastWith f key items = some item ↔ ∃ before after, items = before ++ item :: after ∧
      f item = key ∧ ∀ other ∈ after, f other ≠ key := by
  constructor
  · intro h
    obtain ⟨front, hfront⟩ := List.getLast?_eq_some_iff.mp h
    obtain ⟨before, rest, rfl, -, hrest⟩ := List.filter_eq_append_iff.mp hfront
    obtain ⟨gap, after, rfl, hgap, hitem, hafter⟩ := List.filter_eq_cons_iff.mp hrest
    refine ⟨before ++ gap, after, by rw [List.append_assoc], of_decide_eq_true hitem, ?_⟩
    intro other hother hkey
    have hmem : other ∈ after.filter fun item => f item = key :=
      List.mem_filter.mpr ⟨hother, decide_eq_true hkey⟩
    rw [hafter] at hmem
    cases hmem
  · rintro ⟨before, after, rfl, hkey, hafter⟩
    have hnil : (after.filter fun item => f item = key) = [] := by
      rw [List.filter_eq_nil_iff]
      intro other hother
      simpa using hafter other hother
    simp only [lastWith, List.filter_append, List.filter_cons, hkey, decide_true, if_true, hnil]
    exact List.getLast?_concat

theorem get?_foldl_set_last (items : List α) (f : α → κ) (g : α → ν) (d : InsertionDict κ ν)
    (k : κ) : (items.foldl (fun acc item => acc.set (f item) (g item)) d).get? k =
      ((lastWith f k items).map g).or (d.get? k) := by
  induction items generalizing d with
  | nil => rfl
  | cons item rest ih =>
    rw [List.foldl_cons, ih, get?_set, lastWith_cons]
    cases lastWith f k rest with
    | some last => rfl
    | none =>
      by_cases h : f item = k
      · rw [if_pos h.symm, if_pos h]
        rfl
      · rw [if_neg (Ne.symm h), if_neg h]
        rfl

theorem get?_ofList_last (items : List (κ × ν)) (k : κ) :
    (ofList items).get? k = (lastWith Prod.fst k items).map Prod.snd := by
  unfold ofList
  rw [get?_foldl_set_last items Prod.fst Prod.snd, get?_empty, Option.or_none]

def Settled (f : κ → κ') (items : List (κ × ν)) : Prop :=
  ∀ before entry after, items = before ++ entry :: after → entry.1 ∈ before.map Prod.fst →
    (lastWith (fun item => f item.1) (f entry.1) before).map Prod.fst = some entry.1

omit [DecidableEq κ] in
theorem settled_of_nodup (f : κ → κ') {items : List (κ × ν)} (h : (items.map Prod.fst).Nodup) :
    Settled f items := by
  rintro before entry after rfl hmem
  rw [List.map_append, List.map_cons, List.nodup_append] at h
  exact absurd rfl (h.2.2 entry.1 hmem entry.1 (List.mem_cons_self ..))

theorem lastWith_setEntries {f : κ → κ'} {k : κ} {v v' : ν} {entries : List (κ × ν)}
    (hn : (entries.map Prod.fst).Nodup)
    (hlast : lastWith (fun item => f item.1) (f k) entries = some (k, v')) (key : κ') :
    lastWith (fun item => f item.1) key (setEntries k v entries) =
      if f k = key then some (k, v) else lastWith (fun item => f item.1) key entries := by
  obtain ⟨before, after, rfl, -, hafter⟩ := lastWith_eq_some_iff.mp hlast
  have hfresh : k ∉ before.map Prod.fst := by
    intro hmem
    rw [List.map_append, List.map_cons, List.nodup_append] at hn
    exact hn.2.2 k hmem k (List.mem_cons_self ..) rfl
  have hset : setEntries k v (before ++ (k, v') :: after) = before ++ (k, v) :: after := by
    clear hn hlast
    induction before with
    | nil => rw [List.nil_append, setEntries, if_pos rfl, List.nil_append]
    | cons entry rest ih =>
      rw [List.map_cons, List.mem_cons, not_or] at hfresh
      rw [List.cons_append, setEntries, if_neg (Ne.symm hfresh.1), ih hfresh.2, List.cons_append]
  rw [hset]
  by_cases h : f k = key
  · rw [if_pos h, lastWith_eq_some_iff]
    exact ⟨before, after, rfl, h, h ▸ hafter⟩
  · rw [if_neg h, lastWith, lastWith, List.filter_append, List.filter_append,
      List.filter_cons_of_neg (by simpa using h), List.filter_cons_of_neg (by simpa using h)]

/-- Where no key is assigned again after another one with its image, a comprehension keeps the
last assignment of each image last. -/
theorem lastWith_entries_ofList {f : κ → κ'} {items : List (κ × ν)} (h : Settled f items)
    (key : κ') : lastWith (fun item => f item.1) key (ofList items).entries =
      lastWith (fun item => f item.1) key items := by
  induction items using List.reverseRecOn generalizing key with
  | nil => rfl
  | append_singleton items entry ih =>
    have hsettled : Settled f items := by
      intro before other after heq
      exact h before other (after ++ [entry]) (by rw [heq]; simp)
    have hset : ofList (items ++ [entry]) = (ofList items).set entry.1 entry.2 := by
      rw [ofList, ofList, List.foldl_append]
      rfl
    rw [hset, lastWith_append_singleton]
    by_cases hmem : entry.1 ∈ (ofList items).keys
    · obtain ⟨value, hvalue⟩ := mem_keys_iff.mp hmem
      rw [get?_ofList_last, Option.map_eq_some_iff] at hvalue
      obtain ⟨item, hitem, -⟩ := hvalue
      obtain ⟨before, after, hitems, hkey, -⟩ := lastWith_eq_some_iff.mp hitem
      have hin : entry.1 ∈ items.map Prod.fst := by
        rw [← hkey, hitems]
        exact List.mem_map_of_mem (List.mem_append_right _ (List.mem_cons_self ..))
      have hlast := h items entry [] rfl hin
      obtain ⟨⟨name, old⟩, hold, rfl⟩ := Option.map_eq_some_iff.mp hlast
      rw [← ih hsettled] at hold
      rw [← ih hsettled]
      exact lastWith_setEntries (ofList items).nodup hold key
    · rw [entries_set_of_notMem _ hmem, lastWith_append_singleton, ih hsettled]

end Last

end InsertionDict

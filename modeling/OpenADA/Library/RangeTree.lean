import Mathlib.Data.List.Basic
import Mathlib.Tactic

/-! A binary tree in an array: the node at an index joins the nodes at twice the index, so that the
items of a range are joined from few nodes. -/
namespace RangeTree

variable {α β : Type*}

section Model

variable (merge : β → β → β) (empty : β)

def fill : ℕ → List β → List β
  | 0, tree => tree
  | index + 1, tree => fill index (tree.set (index + 1)
      (merge (tree.getD (2 * (index + 1)) empty) (tree.getD (2 * (index + 1) + 1) empty)))

def build (size : ℕ) (leaves : List β) : List β :=
  fill merge empty (size - 1) (List.replicate size empty ++ leaves ++
    List.replicate (size - leaves.length) empty)

/-- What the nodes between two indices join, behind a left part and before a right one. -/
def joined (tree : List β) (start stop : ℕ) (left right : β) : β :=
  if start < stop then
    joined tree ((start + start % 2) / 2) ((stop - stop % 2) / 2)
      (if start % 2 = 1 then merge left (tree.getD start empty) else left)
      (if stop % 2 = 1 then merge (tree.getD (stop - 1) empty) right else right)
  else merge left right
termination_by stop
decreasing_by omega

end Model

section Filling

variable {merge : β → β → β} {empty : β} {tree : List β} {index i : ℕ}

theorem getD_fill_of_lt (h : index < i) :
    (fill merge empty index tree).getD i empty = tree.getD i empty := by
  induction index generalizing tree with
  | zero => rfl
  | succ index ih =>
    rw [fill, ih (by omega), List.getD_eq_getElem?_getD, List.getElem?_set_ne (by omega),
      List.getD_eq_getElem?_getD]

theorem getD_fill (hpos : 0 < i) (hle : i ≤ index) (hlength : i < tree.length) :
    (fill merge empty index tree).getD i empty =
      merge ((fill merge empty index tree).getD (2 * i) empty)
        ((fill merge empty index tree).getD (2 * i + 1) empty) := by
  induction index generalizing tree with
  | zero => omega
  | succ index ih =>
    rw [fill]
    rcases Nat.lt_or_ge index i with hlt | hge
    · obtain rfl : i = index + 1 := by omega
      rw [getD_fill_of_lt hlt, getD_fill_of_lt (by omega), getD_fill_of_lt (by omega),
        List.getD_eq_getElem?_getD, List.getElem?_set_self hlength, Option.getD_some]
      simp only [List.getD_eq_getElem?_getD]
      rw [List.getElem?_set_ne (by omega), List.getElem?_set_ne (by omega)]
    · exact ih hge (by rwa [List.length_set])

end Filling

section Cover

/-- The items below a node of a tree over so many places, at a height over the leaves. -/
def cover (items : List α) (size : ℕ) : ℕ → ℕ → List α
  | 0, index => (items[index - size]?).toList
  | height + 1, index => cover items size height (2 * index) ++
      cover items size height (2 * index + 1)

def span (items : List α) (size height start stop : ℕ) : List α :=
  (List.range' start (stop - start)).flatMap (cover items size height)

variable {items : List α} {size height start stop : ℕ}

theorem span_of_le (h : stop ≤ start) : span items size height start stop = [] := by
  rw [span, Nat.sub_eq_zero_of_le h]
  rfl

theorem span_cons (h : start < stop) : span items size height start stop =
    cover items size height start ++ span items size height (start + 1) stop := by
  have hlength : stop - start = (stop - (start + 1)) + 1 := by omega
  rw [span, span, hlength, List.range'_succ, List.flatMap_cons]

theorem span_concat (h : start ≤ stop) : span items size height start (stop + 1) =
    span items size height start stop ++ cover items size height stop := by
  have hlength : stop + 1 - start = (stop - start) + 1 := by omega
  have hlast : start + 1 * (stop - start) = stop := by omega
  rw [span, span, hlength, List.range'_concat, List.flatMap_append, hlast, List.flatMap_singleton]

theorem span_double : span items size height (2 * start) (2 * stop) =
    span items size (height + 1) start stop := by
  rcases Nat.le_total stop start with hle | hle
  · rw [span_of_le hle, span_of_le (by omega)]
  · induction stop, hle using Nat.le_induction with
    | base => rw [span_of_le le_rfl, span_of_le le_rfl]
    | succ stop hle ih =>
      have hdouble : 2 * (stop + 1) = 2 * stop + 1 + 1 := by omega
      rw [hdouble, span_concat (by omega), span_concat (by omega), ih, span_concat hle, cover,
        List.append_assoc]

end Cover

section Joining

/-- How nodes stand for items: none for no item, and joined nodes for all their items. -/
structure Represents (merge : β → β → β) (empty : β) (stands : β → List α → Prop) : Prop where
  nil : stands empty []
  append : ∀ {a b xs ys}, stands a xs → stands b ys → stands (merge a b) (xs ++ ys)

variable {merge : β → β → β} {empty : β} {stands : β → List α → Prop} {tree : List β}
  {items : List α} {size height depth start stop : ℕ} {left right : β} {before after : List α}

def Sound (empty : β) (stands : β → List α → Prop) (items : List α) (depth : ℕ) (tree : List β) :
    Prop :=
  ∀ height ≤ depth, ∀ index, 2 ^ (depth - height) ≤ index → index < 2 * 2 ^ (depth - height) →
    stands (tree.getD index empty) (cover items (2 ^ depth) height index)

/-- The range is what its uneven ends and the nodes one height up stand for. -/
theorem span_split (h : start < stop) : span items size height start stop =
    (if start % 2 = 1 then cover items size height start else []) ++
      span items size (height + 1) ((start + start % 2) / 2) ((stop - stop % 2) / 2) ++
        (if stop % 2 = 1 then cover items size height (stop - 1) else []) := by
  have heven : span items size (height + 1) ((start + start % 2) / 2) ((stop - stop % 2) / 2) =
      span items size height (start + start % 2) (stop - stop % 2) := by
    rw [← span_double]
    congr 1 <;> omega
  rw [heven]
  have hstop {from' : ℕ} (hfrom : from' ≤ stop - stop % 2) : span items size height from' stop =
      span items size height from' (stop - stop % 2) ++
        (if stop % 2 = 1 then cover items size height (stop - 1) else []) := by
    rcases Nat.mod_two_eq_zero_or_one stop with heq | heq
    · rw [heq, if_neg Nat.zero_ne_one, List.append_nil, Nat.sub_zero]
    · rw [heq] at hfrom
      have hsucc : stop = (stop - 1) + 1 := by omega
      rw [heq, if_pos rfl]
      conv_lhs => rw [hsucc, span_concat hfrom]
  rcases Nat.mod_two_eq_zero_or_one start with heq | heq
  · rw [heq, if_neg Nat.zero_ne_one, List.nil_append, Nat.add_zero]
    exact hstop (by omega)
  · rw [heq, if_pos rfl, span_cons h, hstop (by omega), List.append_assoc]

theorem stands_joined (hmerge : Represents merge empty stands)
    (htree : Sound empty stands items depth tree)
    (hbounds : start < stop → height ≤ depth ∧ 2 ^ (depth - height) ≤ start ∧
      stop ≤ 2 * 2 ^ (depth - height))
    (hleft : stands left before) (hright : stands right after) :
    stands (joined merge empty tree start stop left right)
      (before ++ span items (2 ^ depth) height start stop ++ after) := by
  induction start, stop, left, right using joined.induct merge empty tree generalizing height before
    after with
  | case1 start stop left right h ih =>
    obtain ⟨hheight, hstart, hstop⟩ := hbounds h
    rw [joined, if_pos h, span_split h]
    have hnext : (start + start % 2) / 2 < (stop - stop % 2) / 2 → height + 1 ≤ depth ∧
        2 ^ (depth - (height + 1)) ≤ (start + start % 2) / 2 ∧
          (stop - stop % 2) / 2 ≤ 2 * 2 ^ (depth - (height + 1)) := by
      intro hlt
      rcases Nat.eq_or_lt_of_le hheight with rfl | hheight
      · rw [Nat.sub_self, pow_zero] at hstart hstop
        omega
      · have hpow : 2 ^ (depth - height) = 2 * 2 ^ (depth - (height + 1)) := by
          rw [← pow_succ']
          congr 1
          omega
        rw [hpow] at hstart hstop
        omega
    have hleft' : stands (if start % 2 = 1 then merge left (tree.getD start empty) else left)
        (before ++ if start % 2 = 1 then cover items (2 ^ depth) height start else []) := by
      by_cases hodd : start % 2 = 1
      · rw [if_pos hodd, if_pos hodd]
        exact hmerge.append hleft (htree height hheight start hstart (by omega))
      · rw [if_neg hodd, if_neg hodd, List.append_nil]
        exact hleft
    have hright' : stands (if stop % 2 = 1 then merge (tree.getD (stop - 1) empty) right else right)
        ((if stop % 2 = 1 then cover items (2 ^ depth) height (stop - 1) else []) ++ after) := by
      by_cases hodd : stop % 2 = 1
      · rw [if_pos hodd, if_pos hodd]
        exact hmerge.append (htree height hheight (stop - 1) (by omega) (by omega)) hright
      · rw [if_neg hodd, if_neg hodd, List.nil_append]
        exact hright
    have hall := ih hnext hleft' hright'
    simpa only [List.append_assoc, dite_eq_ite] using hall
  | case2 start stop left right h =>
    rw [joined, if_neg h, span_of_le (by omega), List.append_nil]
    exact hmerge.append hleft hright

theorem span_leaves (h : start ≤ stop) : span items size 0 (size + start) (size + stop) =
    (items.drop start).take (stop - start) := by
  induction stop, h using Nat.le_induction with
  | base => rw [span_of_le le_rfl, Nat.sub_self, List.take_zero]
  | succ stop h ih =>
    have hlength : stop + 1 - start = (stop - start) + 1 := by omega
    have hindex : start + (stop - start) = stop := by omega
    rw [← Nat.add_assoc, span_concat (by omega), ih, cover, Nat.add_sub_cancel_left, hlength,
      List.take_add_one, List.getElem?_drop, hindex]

theorem sound_build (hmerge : Represents merge empty stands) {leaves : List β}
    (hleaves : List.Forall₂ (fun leaf item => stands leaf [item]) leaves items) :
    Sound empty stands items depth (build merge empty (2 ^ depth) leaves) := by
  have hpos : 0 < 2 ^ depth := Nat.two_pow_pos depth
  intro height
  induction height with
  | zero =>
    intro _ index hlow hhigh
    rw [Nat.sub_zero] at hlow hhigh
    obtain ⟨place, rfl⟩ := Nat.exists_eq_add_of_le hlow
    rw [build, getD_fill_of_lt (by omega), cover, Nat.add_sub_cancel_left,
      List.getD_eq_getElem?_getD, List.append_assoc,
      List.getElem?_append_right (by rw [List.length_replicate]; omega), List.length_replicate,
      Nat.add_sub_cancel_left]
    rcases Nat.lt_or_ge place leaves.length with hplace | hplace
    · have hitem : place < items.length := hleaves.length_eq ▸ hplace
      rw [List.getElem?_append_left hplace, List.getElem?_eq_getElem hplace,
        List.getElem?_eq_getElem hitem]
      exact List.forall₂_iff_get.mp hleaves |>.2 place hplace hitem
    · have hnone : items[place]? = none :=
        List.getElem?_eq_none (hleaves.length_eq ▸ hplace)
      rw [List.getElem?_append_right hplace, hnone]
      have hempty (count i : ℕ) : ((List.replicate count empty)[i]?).getD empty = empty := by
        rw [List.getElem?_replicate]
        split_ifs <;> rfl
      rw [hempty]
      exact hmerge.nil
  | succ height ih =>
    intro hheight index hlow hhigh
    have hpow : 2 ^ (depth - height) = 2 * 2 ^ (depth - (height + 1)) := by
      rw [← pow_succ']
      congr 1
      omega
    have hle : 2 ^ (depth - height) ≤ 2 ^ depth := Nat.pow_le_pow_right two_pos (by omega)
    have hone : 0 < 2 ^ (depth - (height + 1)) := Nat.two_pow_pos _
    rw [build, getD_fill (by omega) (by omega), cover]
    · apply hmerge.append
      · exact ih (by omega) (2 * index) (by omega) (by omega)
      · exact ih (by omega) (2 * index + 1) (by omega) (by omega)
    · rw [List.length_append, List.length_append, List.length_replicate]
      omega

theorem stands_range (hmerge : Represents merge empty stands) {leaves : List β}
    (hleaves : List.Forall₂ (fun leaf item => stands leaf [item]) leaves items)
    (hstart : start ≤ stop) (hstop : stop ≤ 2 ^ depth) :
    stands (joined merge empty (build merge empty (2 ^ depth) leaves) (2 ^ depth + start)
      (2 ^ depth + stop) empty empty) ((items.drop start).take (stop - start)) := by
  have hbounds : 2 ^ depth + start < 2 ^ depth + stop → 0 ≤ depth ∧
      2 ^ (depth - 0) ≤ 2 ^ depth + start ∧ 2 ^ depth + stop ≤ 2 * 2 ^ (depth - 0) := by
    intro _
    rw [Nat.sub_zero]
    omega
  have hjoined := stands_joined hmerge (sound_build hmerge hleaves) hbounds hmerge.nil hmerge.nil
  rwa [List.nil_append, List.append_nil, span_leaves hstart] at hjoined

end Joining

end RangeTree

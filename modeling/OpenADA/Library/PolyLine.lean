import Mathlib.Algebra.Order.Field.Basic
import Mathlib.Data.List.Sort
import Mathlib.Tactic

/-! The signal that joins sampled points by straight lines, and the places where it passes a
level. -/
namespace PolyLine

def segments {α : Type*} (points : List α) : List (α × α) := points.zip points.tail

@[simp] theorem segments_nil {α : Type*} : segments ([] : List α) = [] := rfl

@[simp] theorem segments_singleton {α : Type*} (p : α) : segments [p] = [] := rfl

@[simp] theorem segments_cons_cons {α : Type*} (p q : α) (rest : List α) :
    segments (p :: q :: rest) = (p, q) :: segments (q :: rest) := rfl

theorem segments_map {α β : Type*} (f : α → β) (points : List α) :
    segments (points.map f) = (segments points).map (Prod.map f f) := by
  unfold segments
  rw [← List.map_tail, List.zip_map]

theorem mem_of_mem_segments {α : Type*} {points : List α} {p q : α}
    (h : (p, q) ∈ segments points) : p ∈ points ∧ q ∈ points.tail :=
  List.of_mem_zip h

theorem mem_segments_iff {α : Type*} {points : List α} {p q : α} :
    (p, q) ∈ segments points ↔ [p, q] <:+: points := by
  induction points with
  | nil => simp
  | cons r rest ih =>
    rw [List.infix_cons_iff, ← ih]
    cases rest with
    | nil => simp [List.cons_prefix_cons]
    | cons s rest => simp [List.cons_prefix_cons]

variable {K : Type*} [Field K] [LinearOrder K]

/-- The value at `x` of the line through two points. -/
def lerp (p q : K × K) (x : K) : K := p.2 + (q.2 - p.2) * ((x - p.1) / (q.1 - p.1))

/-- The place where the line through two points has the value `level`. -/
def timeAt (level : K) (p q : K × K) : K := p.1 + (level - p.2) * (q.1 - p.1) / (q.2 - p.2)

/-- The signal that joins the points; past the last point it is constant. -/
def signal : List (K × K) → K → K
  | [], _ => 0
  | [p], _ => p.2
  | p :: q :: rest, x => if x ≤ q.1 then lerp p q x else signal (q :: rest) x

def Increasing (points : List (K × K)) : Prop := points.Pairwise fun p q => p.1 < q.1

def Rises (level : K) (segment : (K × K) × (K × K)) : Prop :=
  segment.1.2 < level ∧ level ≤ segment.2.2

instance (level : K) (segment : (K × K) × (K × K)) : Decidable (Rises level segment) :=
  inferInstanceAs (Decidable (_ ∧ _))

def Falls (level : K) (segment : (K × K) × (K × K)) : Prop :=
  level < segment.1.2 ∧ segment.2.2 ≤ level

instance (level : K) (segment : (K × K) × (K × K)) : Decidable (Falls level segment) :=
  inferInstanceAs (Decidable (_ ∧ _))

def risingTimes (level : K) (points : List (K × K)) : List K :=
  ((segments points).filter fun segment => decide (Rises level segment)).map fun segment =>
    timeAt level segment.1 segment.2

def mirrored (points : List (K × K)) : List (K × K) := points.map fun p => (p.1, -p.2)

section Order

variable {p q : K × K} {points rest : List (K × K)} {level x : K}

omit [Field K] in
theorem Rises.lt (h : Rises level (p, q)) : p.2 < q.2 := h.1.trans_le h.2

omit [Field K] in
theorem Increasing.of_cons (h : Increasing (p :: rest)) : Increasing rest :=
  List.Pairwise.of_cons h

omit [Field K] in
theorem Increasing.head_lt (h : Increasing (p :: q :: rest)) : p.1 < q.1 :=
  List.rel_of_pairwise_cons h List.mem_cons_self

omit [Field K] in
theorem Increasing.head_le (h : Increasing (p :: rest)) {r : K × K} (hr : r ∈ p :: rest) :
    p.1 ≤ r.1 := by
  rcases List.mem_cons.mp hr with rfl | hr
  · exact le_rfl
  · exact (List.rel_of_pairwise_cons h hr).le

omit [Field K] in
theorem Increasing.segment_lt (h : Increasing points) (hmem : (p, q) ∈ segments points) :
    p.1 < q.1 := by
  induction points with
  | nil => cases hmem
  | cons r rest ih =>
    cases rest with
    | nil => cases hmem
    | cons s rest =>
      rcases List.mem_cons.mp hmem with heq | hmem
      · obtain ⟨rfl, rfl⟩ := Prod.mk.inj heq
        exact h.head_lt
      · exact ih h.of_cons hmem

omit [LinearOrder K] in
theorem lerp_left : lerp p q p.1 = p.2 := by
  rw [lerp, sub_self, zero_div, mul_zero, add_zero]

omit [LinearOrder K] in
theorem lerp_sub (p q : K × K) (a b : K) :
    lerp p q b - lerp p q a = (q.2 - p.2) * ((b - a) / (q.1 - p.1)) := by
  unfold lerp
  ring

theorem signal_of_le (hx : x ≤ q.1) : signal (p :: q :: rest) x = lerp p q x := by
  rw [signal, if_pos hx]

theorem signal_head (h : Increasing (p :: rest)) : signal (p :: rest) p.1 = p.2 := by
  cases rest with
  | nil => rfl
  | cons q rest => rw [signal_of_le h.head_lt.le, lerp_left]

theorem mem_risingTimes : x ∈ risingTimes level points ↔
    ∃ p q, (p, q) ∈ segments points ∧ Rises level (p, q) ∧ x = timeAt level p q := by
  constructor
  · intro h
    obtain ⟨⟨p, q⟩, hmem, rfl⟩ := List.mem_map.mp h
    obtain ⟨hmem, hrise⟩ := List.mem_filter.mp hmem
    exact ⟨p, q, hmem, of_decide_eq_true hrise, rfl⟩
  · rintro ⟨p, q, hmem, hrise, rfl⟩
    exact List.mem_map.mpr ⟨(p, q), List.mem_filter.mpr ⟨hmem, decide_eq_true hrise⟩, rfl⟩

theorem risingTimes_cons_cons : risingTimes level (p :: q :: rest) =
    if Rises level (p, q) then timeAt level p q :: risingTimes level (q :: rest)
    else risingTimes level (q :: rest) := by
  unfold risingTimes
  rw [segments_cons_cons]
  by_cases hrise : Rises level (p, q)
  · rw [List.filter_cons, if_pos (decide_eq_true hrise), if_pos hrise, List.map_cons]
  · rw [List.filter_cons, if_neg (by simpa using hrise), if_neg hrise]

theorem segments_concat {α : Type*} (front : List α) (p q : α) :
    segments (front ++ [p] ++ [q]) = segments (front ++ [p]) ++ [(p, q)] := by
  induction front with
  | nil => rfl
  | cons r front ih =>
    cases front with
    | nil => rfl
    | cons s front =>
      show (r, s) :: segments (s :: front ++ [p] ++ [q]) =
        ((r, s) :: segments (s :: front ++ [p])) ++ [(p, q)]
      rw [ih]
      rfl

theorem risingTimes_concat (front : List (K × K)) (p q : K × K) :
    risingTimes level (front ++ [p] ++ [q]) = risingTimes level (front ++ [p]) ++
      if Rises level (p, q) then [timeAt level p q] else [] := by
  unfold risingTimes
  rw [segments_concat, List.filter_append, List.map_append]
  congr 1
  by_cases hrise : Rises level (p, q)
  · rw [if_pos hrise, List.filter_cons, if_pos (decide_eq_true hrise)]
    rfl
  · rw [if_neg hrise, List.filter_cons, if_neg (by simpa using hrise)]
    rfl

theorem below_of_risingTimes_eq_nil (hfirst : ∀ p ∈ points.head?, p.2 < level)
    (h : risingTimes level points = []) : ∀ p ∈ points, p.2 < level := by
  induction points with
  | nil => exact fun p hp => absurd hp List.not_mem_nil
  | cons p rest ih =>
    have hp : p.2 < level := hfirst p rfl
    refine List.forall_mem_cons.mpr ⟨hp, ?_⟩
    cases rest with
    | nil => exact fun q hq => absurd hq List.not_mem_nil
    | cons q rest =>
      rw [risingTimes_cons_cons] at h
      by_cases hrise : Rises level (p, q)
      · rw [if_pos hrise] at h
        exact absurd h (List.cons_ne_nil _ _)
      · rw [if_neg hrise] at h
        apply ih _ h
        intro r hr
        obtain rfl := Option.some.inj hr
        exact not_le.mp fun hle => hrise ⟨hp, hle⟩

end Order

section Segments

variable [IsStrictOrderedRing K] {p q : K × K} {points rest : List (K × K)} {level a b x : K}

theorem lerp_right (h : p.1 < q.1) : lerp p q q.1 = q.2 := by
  have hne : q.1 - p.1 ≠ 0 := (sub_pos.mpr h).ne'
  rw [lerp, div_self hne]
  ring

theorem lerp_lt_lerp (h : p.1 < q.1) (hrise : p.2 < q.2) (hab : a < b) :
    lerp p q a < lerp p q b := by
  have hpos : 0 < (q.2 - p.2) * ((b - a) / (q.1 - p.1)) :=
    mul_pos (sub_pos.mpr hrise) (div_pos (sub_pos.mpr hab) (sub_pos.mpr h))
  rw [← lerp_sub] at hpos
  exact sub_pos.mp hpos

theorem lt_of_lerp_lt (h : p.1 < q.1) (hab : a < b) (hrise : lerp p q a < lerp p q b) :
    p.2 < q.2 := by
  have hpos := sub_pos.mpr hrise
  rw [lerp_sub] at hpos
  exact sub_pos.mp (pos_of_mul_pos_left hpos
    (div_pos (sub_pos.mpr hab) (sub_pos.mpr h)).le)

theorem lerp_timeAt (h : p.1 < q.1) (hne : p.2 ≠ q.2) : lerp p q (timeAt level p q) = level := by
  have hx : q.1 - p.1 ≠ 0 := (sub_pos.mpr h).ne'
  have hy : q.2 - p.2 ≠ 0 := sub_ne_zero.mpr hne.symm
  unfold lerp timeAt
  field_simp
  ring

theorem timeAt_bounds (h : p.1 < q.1) (hrise : Rises level (p, q)) :
    p.1 < timeAt level p q ∧ timeAt level p q ≤ q.1 := by
  obtain ⟨hlow, hhigh⟩ : p.2 < level ∧ level ≤ q.2 := hrise
  have hx : 0 < q.1 - p.1 := sub_pos.mpr h
  have hy : 0 < q.2 - p.2 := sub_pos.mpr (hlow.trans_le hhigh)
  constructor
  · have hpos : 0 < (level - p.2) * (q.1 - p.1) / (q.2 - p.2) :=
      div_pos (mul_pos (sub_pos.mpr hlow) hx) hy
    exact lt_add_of_pos_right _ hpos
  · have hle : (level - p.2) * (q.1 - p.1) / (q.2 - p.2) ≤ q.1 - p.1 := by
      rw [div_le_iff₀ hy, mul_comm (q.1 - p.1)]
      exact mul_le_mul_of_nonneg_right (sub_le_sub_right hhigh _) hx.le
    have hsum := add_le_add_left hle p.1
    unfold timeAt
    linarith

theorem signal_of_ge (h : Increasing (p :: q :: rest)) (hx : q.1 ≤ x) :
    signal (p :: q :: rest) x = signal (q :: rest) x := by
  rcases eq_or_lt_of_le hx with rfl | hlt
  · rw [signal_of_le le_rfl, lerp_right h.head_lt]
    cases rest with
    | nil => rfl
    | cons r rest => rw [signal_of_le h.of_cons.head_lt.le, lerp_left]
  · rw [signal, if_neg (not_le.mpr hlt)]

theorem signal_eq_lerp (h : Increasing points) (hmem : (p, q) ∈ segments points)
    (hpx : p.1 ≤ x) (hxq : x ≤ q.1) : signal points x = lerp p q x := by
  induction points with
  | nil => cases hmem
  | cons r rest ih =>
    cases rest with
    | nil => cases hmem
    | cons s rest =>
      rcases List.mem_cons.mp hmem with heq | hmem
      · obtain ⟨rfl, rfl⟩ := Prod.mk.inj heq
        exact signal_of_le hxq
      · have hsp : s.1 ≤ p.1 := h.of_cons.head_le (mem_of_mem_segments hmem).1
        rw [signal_of_ge h (hsp.trans hpx)]
        exact ih h.of_cons hmem

omit [Field K] [IsStrictOrderedRing K] in
theorem exists_segment {r s : K × K} (h : Increasing points) (hpq : (p, q) ∈ segments points)
    (hrs : (r, s) ∈ segments points) (hpx : p.1 ≤ x) (hxs : x ≤ s.1) :
    ∃ t u, (t, u) ∈ segments points ∧ t.1 ≤ x ∧ x ≤ u.1 := by
  induction points generalizing p q with
  | nil => cases hpq
  | cons t rest ih =>
    cases rest with
    | nil => cases hpq
    | cons u rest =>
      rcases le_total x u.1 with hxu | hux
      · refine ⟨t, u, List.mem_cons_self, ?_, hxu⟩
        exact (h.head_le (mem_of_mem_segments hpq).1).trans hpx
      · rcases List.mem_cons.mp hrs with heq | hlater
        · obtain ⟨rfl, rfl⟩ := Prod.mk.inj heq
          exact ⟨r, s, List.mem_cons_self, h.head_lt.le.trans hux, hxs⟩
        · cases rest with
          | nil => cases hlater
          | cons v rest =>
            have hfirst : (u, v) ∈ segments (u :: v :: rest) := List.mem_cons_self
            obtain ⟨y, z, hmem, hbounds⟩ : ∃ y z, (y, z) ∈ segments (u :: v :: rest) ∧
                y.1 ≤ x ∧ x ≤ z.1 := by
              rcases List.mem_cons.mp hpq with heq | hlaterPq
              · exact ih h.of_cons hfirst hlater hux
              · exact ih h.of_cons hlaterPq hlater hpx
            exact ⟨y, z, List.mem_cons_of_mem _ hmem, hbounds⟩

end Segments

section Rising

variable [IsStrictOrderedRing K] {p q : K × K} {points rest : List (K × K)} {level a b x : K}

/-- At a passage the signal has the level, and it is below the level just before. -/
theorem signal_at_risingTime (h : Increasing points) (hmem : (p, q) ∈ segments points)
    (hrise : Rises level (p, q)) :
    signal points (timeAt level p q) = level ∧
      ∀ x, p.1 ≤ x → x < timeAt level p q → signal points x < level := by
  have hlt := h.segment_lt hmem
  obtain ⟨hleft, hright⟩ := timeAt_bounds hlt hrise
  have hat : lerp p q (timeAt level p q) = level := lerp_timeAt hlt hrise.lt.ne
  refine ⟨(signal_eq_lerp h hmem hleft.le hright).trans hat, fun x hpx hx => ?_⟩
  rw [signal_eq_lerp h hmem hpx (hx.le.trans hright)]
  exact (lerp_lt_lerp hlt hrise.lt hx).trans_eq hat

theorem risingTimes_sorted (h : Increasing points) :
    (risingTimes level points).Pairwise (· < ·) ∧
      ∀ p ∈ points.head?, ∀ x ∈ risingTimes level points, p.1 < x := by
  induction points with
  | nil => exact ⟨List.Pairwise.nil, fun p hp => by cases hp⟩
  | cons p rest ih =>
    cases rest with
    | nil => exact ⟨List.Pairwise.nil, fun _ _ x hx => by cases hx⟩
    | cons q rest =>
      obtain ⟨hsorted, hafter⟩ := ih h.of_cons
      have hq : ∀ x ∈ risingTimes level (q :: rest), q.1 < x := hafter q rfl
      rw [risingTimes_cons_cons]
      by_cases hrise : Rises level (p, q)
      · obtain ⟨hleft, hright⟩ := timeAt_bounds h.head_lt hrise
        rw [if_pos hrise]
        refine ⟨List.pairwise_cons.mpr ⟨fun x hx => hright.trans_lt (hq x hx), hsorted⟩, ?_⟩
        intro r hr x hx
        obtain rfl := Option.some.inj hr
        rcases List.mem_cons.mp hx with rfl | hx
        · exact hleft
        · exact h.head_lt.trans (hq x hx)
      · rw [if_neg hrise]
        refine ⟨hsorted, fun r hr x hx => ?_⟩
        obtain rfl := Option.some.inj hr
        exact h.head_lt.trans (hq x hx)

/-- A signal that comes to a level from below passes it upwards on the way. -/
theorem exists_risingTime (h : Increasing points) (hfirst : ∀ p ∈ points.head?, p.1 ≤ a)
    (hab : a < b) (ha : signal points a < level) (hb : level ≤ signal points b) :
    ∃ x ∈ risingTimes level points, a < x ∧ x ≤ b := by
  induction points generalizing a with
  | nil => exact absurd (ha.trans_le hb) (lt_irrefl _)
  | cons p rest ih =>
    cases rest with
    | nil => exact absurd (ha.trans_le hb) (lt_irrefl _)
    | cons q rest =>
      have hp : p.1 ≤ a := hfirst p rfl
      have hlt := h.head_lt
      -- within the first segment the line through it rises through the level
      have hinside {c : K} (hac : a < c) (hcb : c ≤ b) (hcq : c ≤ q.1)
          (hc : level ≤ signal (p :: q :: rest) c) :
          ∃ x ∈ risingTimes level (p :: q :: rest), a < x ∧ x ≤ b := by
        rw [signal_of_le hcq] at hc
        rw [signal_of_le (hac.le.trans hcq)] at ha
        have hrise := lt_of_lerp_lt hlt hac (ha.trans_le hc)
        have hmono : StrictMono (lerp p q) := fun _ _ hxy => lerp_lt_lerp hlt hrise hxy
        have hpq : Rises level (p, q) := by
          constructor
          · calc p.2 = lerp p q p.1 := lerp_left.symm
              _ ≤ lerp p q a := hmono.monotone hp
              _ < level := ha
          · calc level ≤ lerp p q c := hc
              _ ≤ lerp p q q.1 := hmono.monotone hcq
              _ = q.2 := lerp_right hlt
        have hat : lerp p q (timeAt level p q) = level := lerp_timeAt hlt hrise.ne
        refine ⟨timeAt level p q, ?_, ?_, ?_⟩
        · rw [risingTimes_cons_cons, if_pos hpq]
          exact List.mem_cons_self
        · exact hmono.lt_iff_lt.mp (ha.trans_eq hat.symm)
        · exact (hmono.le_iff_le.mp (hat.trans_le hc)).trans hcb
      have hlater {c : K} (hc : q.1 ≤ c) (hcb : c < b) (hbelow : signal (p :: q :: rest) c < level)
          (hac : a ≤ c) : ∃ x ∈ risingTimes level (p :: q :: rest), a < x ∧ x ≤ b := by
        rw [signal_of_ge h hc] at hbelow
        rw [signal_of_ge h (hc.trans hcb.le)] at hb
        obtain ⟨x, hx, hcx, hxb⟩ := ih h.of_cons
          (fun r hr => by obtain rfl := Option.some.inj hr; exact hc) hcb hbelow hb
        refine ⟨x, ?_, hac.trans_lt hcx, hxb⟩
        rw [risingTimes_cons_cons]
        split
        · exact List.mem_cons_of_mem _ hx
        · exact hx
      rcases le_or_gt b q.1 with hbq | hqb
      · exact hinside hab le_rfl hbq hb
      · rcases le_or_gt q.1 a with hqa | haq
        · exact hlater hqa hab ha le_rfl
        · rcases lt_or_ge (signal (p :: q :: rest) q.1) level with hbelow | habove
          · exact hlater le_rfl hqb hbelow haq.le
          · exact hinside haq hqb.le le_rfl habove

theorem signal_of_mem (h : Increasing points) (hp : p ∈ points) : signal points p.1 = p.2 := by
  induction points with
  | nil => cases hp
  | cons q rest ih =>
    rcases List.mem_cons.mp hp with rfl | hp
    · exact signal_head h
    · cases rest with
      | nil => cases hp
      | cons r rest => rw [signal_of_ge h (h.of_cons.head_le hp), ih h.of_cons hp]

omit [Field K] [IsStrictOrderedRing K] in
/-- A place between the first and the last of several points lies on a segment. -/
theorem exists_segment_of_bounds (hfirst : p.1 ≤ x)
    (hlast : ∀ r ∈ (q :: rest).getLast?, x ≤ r.1) :
    ∃ t u, (t, u) ∈ segments (p :: q :: rest) ∧ t.1 ≤ x ∧ x ≤ u.1 := by
  induction rest generalizing p q with
  | nil => exact ⟨p, q, List.mem_cons_self, hfirst, hlast q rfl⟩
  | cons r rest ih =>
    rcases le_total x q.1 with hxq | hqx
    · exact ⟨p, q, List.mem_cons_self, hfirst, hxq⟩
    · obtain ⟨t, u, hmem, hbounds⟩ := ih hqx (by simpa using hlast)
      exact ⟨t, u, List.mem_cons_of_mem _ hmem, hbounds⟩

theorem signal_infix (h : Increasing points) (hpart : p :: q :: rest <:+: points)
    (hfirst : p.1 ≤ x) (hlast : ∀ r ∈ (q :: rest).getLast?, x ≤ r.1) :
    signal (p :: q :: rest) x = signal points x := by
  obtain ⟨t, u, hmem, htx, hxu⟩ := exists_segment_of_bounds hfirst hlast
  have hrun : Increasing (p :: q :: rest) := h.sublist hpart.sublist
  have hall := mem_segments_iff.mpr ((mem_segments_iff.mp hmem).trans hpart)
  rw [signal_eq_lerp hrun hmem htx hxu, signal_eq_lerp h hall htx hxu]

end Rising

section Arrival

/-- The line is below the level from `start` on, and comes to it for the first time at `x`. -/
structure Arrives (line : K → K) (level start x : K) : Prop where
  after : start < x
  below : ∀ y, start ≤ y → y < x → line y < level
  reaches : line x = level

variable {line : K → K} {level start x y : K} {points : List (K × K)}

omit [Field K] in
theorem Arrives.unique (hx : Arrives line level start x) (hy : Arrives line level start y) :
    x = y := by
  rcases lt_trichotomy x y with hlt | heq | hgt
  · exact absurd hx.reaches (hy.below x hx.after.le hlt).ne
  · exact heq
  · exact absurd hy.reaches (hx.below y hy.after.le hgt).ne

/-- The first passage of points that start below a level and end at or above it. -/
theorem arrives_first [IsStrictOrderedRing K] {trough q peak : K × K} {rest : List (K × K)}
    (h : Increasing points) (hpart : trough :: q :: rest <:+: points)
    (hlast : (q :: rest).getLast? = some peak) (hlow : trough.2 < level) (hhigh : level ≤ peak.2) :
    ∃ x, (risingTimes level (trough :: q :: rest)).head? = some x ∧ x ≤ peak.1 ∧
      Arrives (signal points) level trough.1 x := by
  have hrun : Increasing (trough :: q :: rest) := h.sublist hpart.sublist
  have hends : ∀ r ∈ (q :: rest).getLast?, peak.1 ≤ r.1 := by
    intro r hr
    rw [hlast] at hr
    rw [Option.some.inj hr]
  have hpeak : peak ∈ q :: rest := List.mem_of_getLast? hlast
  have hfirst : ∀ p ∈ (trough :: q :: rest).head?, p.1 ≤ trough.1 := by
    intro p hp
    rw [Option.some.inj hp]
  have hstart : signal (trough :: q :: rest) trough.1 < level := by
    rw [signal_head hrun]
    exact hlow
  have hends' : level ≤ signal (trough :: q :: rest) peak.1 := by
    rw [signal_of_mem hrun (List.mem_cons_of_mem _ hpeak)]
    exact hhigh
  have hlt : trough.1 < peak.1 := List.rel_of_pairwise_cons hrun hpeak
  obtain ⟨later, hlater, -, hle⟩ := exists_risingTime hrun hfirst hlt hstart hends'
  obtain ⟨hsorted, hafter⟩ : (risingTimes level (trough :: q :: rest)).Pairwise (· < ·) ∧
      ∀ p ∈ (trough :: q :: rest).head?, ∀ y ∈ risingTimes level (trough :: q :: rest), p.1 < y :=
    risingTimes_sorted hrun
  cases hrises : risingTimes level (trough :: q :: rest) with
  | nil =>
    rw [hrises] at hlater
    cases hlater
  | cons x others =>
    rw [hrises] at hsorted hlater hafter
    have hleast : ∀ y ∈ x :: others, x ≤ y := by
      intro y hy
      rcases List.mem_cons.mp hy with rfl | hy
      · exact le_rfl
      · exact (List.rel_of_pairwise_cons hsorted hy).le
    have hx := hafter trough rfl x List.mem_cons_self
    refine ⟨x, rfl, (hleast later hlater).trans hle, hx, fun y hy hyx => ?_, ?_⟩
    · have hyend : ∀ r ∈ (q :: rest).getLast?, y ≤ r.1 := fun r hr =>
        hyx.le.trans (((hleast later hlater).trans hle).trans (hends r hr))
      rw [← signal_infix h hpart hy hyend]
      by_contra habove
      have hne : trough.1 ≠ y := by
        rintro rfl
        exact habove hstart
      obtain ⟨z, hz, -, hzy⟩ :=
        exists_risingTime hrun hfirst (lt_of_le_of_ne hy hne) hstart (not_lt.mp habove)
      rw [hrises] at hz
      exact absurd ((hleast z hz).trans hzy) (not_le.mpr hyx)
    · have hmem : x ∈ risingTimes level (trough :: q :: rest) := by
        rw [hrises]
        exact List.mem_cons_self
      obtain ⟨p, r, hsegment, hrise, rfl⟩ := mem_risingTimes.mp hmem
      have hall := mem_segments_iff.mpr ((mem_segments_iff.mp hsegment).trans hpart)
      exact (signal_at_risingTime h hall hrise).1

end Arrival

section Window

variable {p q : K × K} {points : List (K × K)} {start stop : K}

def within (start stop : K) (p : K × K) : Bool := decide (start ≤ p.1) && decide (p.1 ≤ stop)

def segmentWithin (start stop : K) (segment : (K × K) × (K × K)) : Bool :=
  decide (start ≤ segment.1.1) && decide (segment.2.1 ≤ stop)

omit [Field K] in
theorem within_iff : within start stop p = true ↔ start ≤ p.1 ∧ p.1 ≤ stop := by
  rw [within, Bool.and_eq_true, decide_eq_true_eq, decide_eq_true_eq]

omit [Field K] in
theorem segmentWithin_iff : segmentWithin start stop (p, q) = true ↔ start ≤ p.1 ∧ q.1 ≤ stop := by
  rw [segmentWithin, Bool.and_eq_true, decide_eq_true_eq, decide_eq_true_eq]

omit [Field K] in
theorem segments_filter_within (h : Increasing points) :
    (segments points).filter (segmentWithin start stop) =
      segments (points.filter (within start stop)) := by
  induction points with
  | nil => rfl
  | cons p rest ih =>
    cases rest with
    | nil =>
      rw [List.filter_cons]
      split <;> rfl
    | cons q rest =>
      have hlt : p.1 < q.1 := h.head_lt
      have hstep := ih h.of_cons
      rw [segments_cons_cons]
      by_cases hp : start ≤ p.1
      · by_cases hq : q.1 ≤ stop
        · have hkeepP : within start stop p = true := within_iff.mpr ⟨hp, hlt.le.trans hq⟩
          have hkeepQ : within start stop q = true := within_iff.mpr ⟨hp.trans hlt.le, hq⟩
          rw [List.filter_cons_of_pos (segmentWithin_iff.mpr ⟨hp, hq⟩), hstep,
            List.filter_cons_of_pos hkeepP, List.filter_cons_of_pos hkeepQ, segments_cons_cons]
        · -- past the window no point is kept
          have hnone : (q :: rest).filter (within start stop) = [] := by
            rw [List.filter_eq_nil_iff]
            intro r hr hin
            exact hq ((h.of_cons.head_le hr).trans (within_iff.mp hin).2)
          rw [List.filter_cons_of_neg fun hin => hq (segmentWithin_iff.mp hin).2, hstep, hnone,
            List.filter_cons, hnone]
          split <;> rfl
      · rw [List.filter_cons_of_neg fun hin => hp (segmentWithin_iff.mp hin).1, hstep,
          List.filter_cons_of_neg fun hin => hp (within_iff.mp hin).1]

omit [Field K] in
theorem Increasing.filter (h : Increasing points) (keep : K × K → Bool) :
    Increasing (points.filter keep) := List.Pairwise.filter keep h

end Window

section Traversal

/-- The line comes from below to `first` at the start and goes on to `second` at the stop, which it
reaches there for the first time, without falling under `first` on the way. -/
structure Traverses (line : K → K) (first second start stop : K) : Prop where
  ordered : start < stop
  crosses : line start = first ∧ ∃ before < start, ∀ x, before ≤ x → x < start → line x < first
  reaches : line stop = second ∧ ∀ x, start ≤ x → x < stop → line x < second
  stays : ∀ x, start ≤ x → x ≤ stop → first ≤ line x

omit [Field K] in
/-- In a sorted list an item above one at some position is not before the next. -/
theorem exists_next {items : List K} (hsorted : items.Pairwise (· < ·)) {k : ℕ} {s t : K}
    (hs : items[k]? = some s) (ht : t ∈ items) (hlt : s < t) :
    ∃ next, items[k + 1]? = some next ∧ next ≤ t := by
  obtain ⟨hk, rfl⟩ := List.getElem?_eq_some_iff.mp hs
  obtain ⟨j, hj, rfl⟩ := List.getElem_of_mem ht
  have hkj : k < j := by
    by_contra hjk
    rcases eq_or_lt_of_le (not_lt.mp hjk) with rfl | hjk
    · exact lt_irrefl _ hlt
    · exact lt_asymm hlt (List.pairwise_iff_getElem.mp hsorted j k hj hk hjk)
  have hnext : k + 1 < items.length := by omega
  refine ⟨items[k + 1], List.getElem?_eq_getElem hnext, ?_⟩
  rcases eq_or_lt_of_le (Nat.succ_le_of_lt hkj) with rfl | hlater
  · exact le_rfl
  · exact (List.pairwise_iff_getElem.mp hsorted (k + 1) j hnext hj hlater).le

omit [Field K] in
/-- What is found in a sorted list is below all that would be found as well. -/
theorem find?_least {items : List K} (hsorted : items.Pairwise (· < ·)) {good : K → Bool} {e t : K}
    (hfind : items.find? good = some e) (ht : t ∈ items) (hgood : good t = true) : e ≤ t := by
  obtain ⟨-, before, rest, rfl, hbefore⟩ := List.find?_eq_some_iff_append.mp hfind
  rcases List.mem_append.mp ht with ht | ht
  · have hnot := hbefore t ht
    rw [hgood] at hnot
    cases hnot
  · rcases List.mem_cons.mp ht with rfl | ht
    · exact le_rfl
    · exact (List.rel_of_pairwise_cons (List.pairwise_append.mp hsorted).2.1 ht).le

variable [IsStrictOrderedRing K] {points : List (K × K)} {first second start stop : K} {k : ℕ}

/-- A passage of the first level and the first later passage of the second one, before the first
level is passed again, are the ends of a traversal. -/
theorem traverses {line : K → K} (h : Increasing points)
    (hline : ∀ p q, (p, q) ∈ segments points → ∀ x, p.1 ≤ x → x ≤ q.1 → line x = lerp p q x)
    (hlevels : first < second) (hstart : (risingTimes first points)[k]? = some start)
    (hstop : (risingTimes second points).find? (fun item => decide (start ≤ item) &&
      ((risingTimes first points)[k + 1]?.all fun next => decide (item < next))) = some stop) :
    Traverses line first second start stop := by
  obtain ⟨p, q, hpq, hrisePq, hstartEq⟩ := mem_risingTimes.mp (List.mem_of_getElem? hstart)
  obtain ⟨r, s, hrs, hriseRs, hstopEq⟩ := mem_risingTimes.mp (List.mem_of_find?_eq_some hstop)
  obtain ⟨hp, -⟩ := timeAt_bounds (h.segment_lt hpq) hrisePq
  obtain ⟨-, hs⟩ := timeAt_bounds (h.segment_lt hrs) hriseRs
  obtain ⟨hatStart, hbefore⟩ := signal_at_risingTime h hpq hrisePq
  obtain ⟨hatStop, -⟩ := signal_at_risingTime h hrs hriseRs
  rw [← hstartEq] at hp hatStart hbefore
  rw [← hstopEq] at hs hatStop
  have hfound := List.find?_some hstop
  rw [Bool.and_eq_true, decide_eq_true_eq] at hfound
  obtain ⟨hle, hnext⟩ := hfound
  have hsignal (x : K) (hpx : p.1 ≤ x) (hxs : x ≤ s.1) : line x = signal points x := by
    obtain ⟨t, u, htu, htx, hxu⟩ := exists_segment h hpq hrs hpx hxs
    rw [hline t u htu x htx hxu, signal_eq_lerp h htu htx hxu]
  have hordered : start < stop := by
    refine lt_of_le_of_ne hle fun heq => ?_
    rw [heq, hatStop] at hatStart
    exact hlevels.ne' hatStart
  have hhead : ∀ t ∈ points.head?, t.1 ≤ start := by
    intro t ht
    exact ((risingTimes_sorted h).2 t ht start (List.mem_of_getElem? hstart)).le
  refine ⟨hordered, ⟨?_, p.1, hp, fun x hpx hx => ?_⟩, ⟨?_, fun x hsx hx => ?_⟩, ?_⟩
  · rw [hsignal start hp.le (hordered.le.trans hs), hatStart]
  · rw [hsignal x hpx (hx.le.trans (hordered.le.trans hs))]
    exact hbefore x hpx hx
  · rw [hsignal stop (hp.le.trans hle) hs, hatStop]
  · -- an earlier arrival at the second level would have been found before
    rw [hsignal x (hp.le.trans hsx) (hx.le.trans hs)]
    by_contra habove
    have hbelow : signal points start < second := hatStart.trans_lt hlevels
    have hsx' : start < x := by
      refine lt_of_le_of_ne hsx fun heq => ?_
      rw [← heq] at habove
      exact habove hbelow
    obtain ⟨t, ht, hst, htx⟩ := exists_risingTime h hhead hsx' hbelow (not_lt.mp habove)
    have hgood : (decide (start ≤ t) &&
        ((risingTimes first points)[k + 1]?.all fun next => decide (t < next))) = true := by
      rw [Bool.and_eq_true, decide_eq_true_eq, Option.all_eq_true]
      refine ⟨hst.le, fun next hmem => decide_eq_true ?_⟩
      have hlater := of_decide_eq_true ((Option.all_eq_true _ _).mp hnext next hmem)
      exact (htx.trans_lt hx).trans hlater
    exact absurd ((find?_least (risingTimes_sorted h).1 hstop ht hgood).trans htx) (not_le.mpr hx)
  · -- below the first level the signal would have to pass it again before the stop
    intro x hsx hxs
    rw [hsignal x (hp.le.trans hsx) (hxs.trans hs)]
    by_contra hbelow
    have hne : x ≠ stop := by
      rintro rfl
      rw [hatStop] at hbelow
      exact hbelow hlevels.le
    have hheadX : ∀ t ∈ points.head?, t.1 ≤ x := fun t ht => (hhead t ht).trans hsx
    obtain ⟨t, ht, hxt, hts⟩ := exists_risingTime h hheadX (lt_of_le_of_ne hxs hne)
      (not_le.mp hbelow) (hlevels.le.trans hatStop.ge)
    obtain ⟨next, hnextEq, hnextLe⟩ :=
      exists_next (risingTimes_sorted h).1 hstart ht (hsx.trans_lt hxt)
    have hlater := of_decide_eq_true ((Option.all_eq_true _ _).mp hnext next hnextEq)
    exact absurd (hnextLe.trans hts) (not_le.mpr hlater)

end Traversal

section Mirror

variable {p q : K × K} {points : List (K × K)} {level : K}

theorem Increasing.mirrored (h : Increasing points) : Increasing (mirrored points) :=
  List.pairwise_map.mpr h

omit [LinearOrder K] in
theorem timeAt_mirrored (level : K) (p q : K × K) :
    timeAt (-level) (p.1, -p.2) (q.1, -q.2) = timeAt level p q := by
  have hnumerator : (-level - -p.2) * (q.1 - p.1) = -((level - p.2) * (q.1 - p.1)) := by ring
  have hdenominator : -q.2 - -p.2 = -(q.2 - p.2) := by ring
  unfold timeAt
  rw [hnumerator, hdenominator, neg_div_neg_eq]

end Mirror

end PolyLine

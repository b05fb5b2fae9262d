import OpenADA.Library.SortedSet

/-! The ranges that a receipt keeps of a set of bins: the maximal runs of neighbours, from which the
set is read back. -/
namespace OpenADA.Spectral

open Finset

structure BinRange where
  start : ℤ
  stop : ℤ
  deriving DecidableEq

/-- The loop of `_bin_ranges`, with a range open from `start` to `previous`. -/
def binRangesFrom (start previous : ℤ) : List ℤ → List BinRange
  | [] => [⟨start, previous⟩]
  | index :: rest =>
    if index ≠ previous + 1 then ⟨start, previous⟩ :: binRangesFrom index index rest
    else binRangesFrom start index rest

/-- `_bin_ranges` -/
def binRanges : List ℤ → List BinRange
  | [] => []
  | first :: rest => binRangesFrom first first rest

def Covers (ranges : List BinRange) (index : ℤ) : Prop :=
  ∃ range ∈ ranges, range.start ≤ index ∧ index ≤ range.stop

/-- Ranges that hold a bin each, in increasing order, with a bin left out between two of them. -/
structure Maximal (ranges : List BinRange) : Prop where
  nonempty : ∀ range ∈ ranges, range.start ≤ range.stop
  separate : ranges.Pairwise fun first second => first.stop + 1 < second.start

section Cover

variable {range other : BinRange} {ranges rest : List BinRange} {index : ℤ}

@[simp] theorem covers_nil : ¬Covers [] index := by
  rintro ⟨range, hrange, -⟩
  exact absurd hrange List.not_mem_nil

theorem covers_cons : Covers (range :: rest) index ↔
    (range.start ≤ index ∧ index ≤ range.stop) ∨ Covers rest index := by
  unfold Covers
  rw [List.exists_mem_cons_iff]

theorem Maximal.of_cons (h : Maximal (range :: rest)) : Maximal rest where
  nonempty r hr := h.nonempty r (List.mem_cons_of_mem _ hr)
  separate := h.separate.of_cons

theorem Maximal.lt_of_covers (h : Maximal (range :: rest)) (hindex : Covers rest index) :
    range.stop + 1 < index := by
  obtain ⟨later, hlater, hstart, -⟩ := hindex
  exact (List.rel_of_pairwise_cons h.separate hlater).trans_le hstart

theorem Maximal.covers_start (h : Maximal (range :: rest)) : Covers (range :: rest) range.start :=
  covers_cons.mpr (.inl ⟨le_rfl, h.nonempty range List.mem_cons_self⟩)

theorem Maximal.start_le (h : Maximal (range :: rest)) (hindex : Covers (range :: rest) index) :
    range.start ≤ index := by
  have hrange := h.nonempty range List.mem_cons_self
  rcases covers_cons.mp hindex with hinside | hlater
  · exact hinside.1
  · have := h.lt_of_covers hlater
    omega

theorem Maximal.head_unique (h : Maximal (range :: rest)) (hother : Maximal (other :: ranges))
    (hsame : ∀ index, Covers (range :: rest) index ↔ Covers (other :: ranges) index) :
    range = other := by
  have hstart : range.start = other.start := by
    apply le_antisymm
    · exact h.start_le ((hsame _).mpr hother.covers_start)
    · exact hother.start_le ((hsame _).mp h.covers_start)
  have hrange := h.nonempty range List.mem_cons_self
  have hnonempty := hother.nonempty other List.mem_cons_self
  -- the bin behind a range is left out, so neither range is longer
  have hout {a b : BinRange} {as bs : List BinRange} (ha : Maximal (a :: as))
      (hb : Maximal (b :: bs)) (hab : ∀ index, Covers (a :: as) index ↔ Covers (b :: bs) index)
      (heq : a.start = b.start) : b.stop ≤ a.stop := by
    by_contra hlt
    have ha' := ha.nonempty a List.mem_cons_self
    have hcovers : Covers (b :: bs) (a.stop + 1) :=
      covers_cons.mpr (.inl ⟨by omega, by omega⟩)
    rcases covers_cons.mp ((hab _).mpr hcovers) with hinside | hlater
    · omega
    · have := ha.lt_of_covers hlater
      omega
  have hstop : range.stop = other.stop :=
    le_antisymm (hout hother h (fun index => (hsame index).symm) hstart.symm)
      (hout h hother hsame hstart)
  obtain ⟨start, stop⟩ := range
  obtain rfl : start = other.start := hstart
  obtain rfl : stop = other.stop := hstop
  rfl

theorem Maximal.unique {first second : List BinRange} (h : Maximal first) (hother : Maximal second)
    (hsame : ∀ index, Covers first index ↔ Covers second index) : first = second := by
  induction first generalizing second with
  | nil =>
    cases second with
    | nil => rfl
    | cons other ranges => exact absurd ((hsame _).mpr hother.covers_start) covers_nil
  | cons range rest ih =>
    cases second with
    | nil => exact absurd ((hsame _).mp h.covers_start) covers_nil
    | cons other ranges =>
      obtain rfl := h.head_unique hother hsame
      congr 1
      apply ih h.of_cons hother.of_cons
      intro index
      constructor
      · intro hindex
        rcases covers_cons.mp ((hsame index).mp (covers_cons.mpr (.inr hindex))) with hinside | hlater
        · have := h.lt_of_covers hindex
          omega
        · exact hlater
      · intro hindex
        rcases covers_cons.mp ((hsame index).mpr (covers_cons.mpr (.inr hindex))) with
          hinside | hlater
        · have := hother.lt_of_covers hindex
          omega
        · exact hlater

end Cover

section Loop

variable {start previous index : ℤ} {rest : List ℤ}

theorem covers_binRangesFrom (hopen : start ≤ previous)
    (hsorted : (previous :: rest).Pairwise (· < ·)) :
    Covers (binRangesFrom start previous rest) index ↔
      (start ≤ index ∧ index ≤ previous) ∨ index ∈ rest := by
  induction rest generalizing start previous with
  | nil => simp [binRangesFrom, covers_cons]
  | cons next rest ih =>
    have hnext : previous < next := List.rel_of_pairwise_cons hsorted List.mem_cons_self
    rw [binRangesFrom, List.mem_cons]
    by_cases hadjacent : next = previous + 1
    · rw [if_neg (not_not.mpr hadjacent), ih (by omega) hsorted.of_cons, ← or_assoc]
      apply or_congr_left
      omega
    · rw [if_pos hadjacent, covers_cons, ih le_rfl hsorted.of_cons]
      apply or_congr_right
      apply or_congr_left
      omega

theorem maximal_binRangesFrom (hopen : start ≤ previous)
    (hsorted : (previous :: rest).Pairwise (· < ·)) :
    Maximal (binRangesFrom start previous rest) ∧
      ∀ range ∈ binRangesFrom start previous rest, start ≤ range.start := by
  induction rest generalizing start previous with
  | nil =>
    rw [binRangesFrom]
    refine ⟨⟨List.forall_mem_singleton.mpr hopen, List.pairwise_singleton _ _⟩, ?_⟩
    exact List.forall_mem_singleton.mpr le_rfl
  | cons next rest ih =>
    have hnext : previous < next := List.rel_of_pairwise_cons hsorted List.mem_cons_self
    rw [binRangesFrom]
    by_cases hadjacent : next = previous + 1
    · rw [if_neg (not_not.mpr hadjacent)]
      exact ih (by omega) hsorted.of_cons
    · rw [if_pos hadjacent]
      obtain ⟨hmaximal, hstarts⟩ := @ih next next le_rfl hsorted.of_cons
      refine ⟨⟨?_, ?_⟩, ?_⟩
      · exact List.forall_mem_cons.mpr ⟨hopen, hmaximal.nonempty⟩
      · refine List.pairwise_cons.mpr ⟨?_, hmaximal.separate⟩
        intro range hrange
        have := hstarts range hrange
        show previous + 1 < range.start
        omega
      · refine List.forall_mem_cons.mpr ⟨le_rfl, ?_⟩
        intro range hrange
        have := hstarts range hrange
        omega

end Loop

theorem binRanges_maximal {indices : List ℤ} (hsorted : indices.Pairwise (· < ·)) :
    Maximal (binRanges indices) ∧ ∀ index, Covers (binRanges indices) index ↔ index ∈ indices := by
  cases indices with
  | nil =>
    refine ⟨⟨fun range hrange => ?_, List.Pairwise.nil⟩, fun index => ?_⟩
    · exact absurd hrange List.not_mem_nil
    · simp [binRanges]
  | cons first rest =>
    refine ⟨(maximal_binRangesFrom le_rfl hsorted).1, fun index => ?_⟩
    rw [binRanges, covers_binRangesFrom le_rfl hsorted, List.mem_cons]
    apply or_congr_left
    omega

/-- The ranges of a set of bins are its maximal runs: they cover the set, no others do, and equal
ranges come of equal sets. -/
theorem binRanges_lossless (bins : Finset ℤ) :
    Maximal (binRanges bins.sortedList) ∧
      (∀ index, Covers (binRanges bins.sortedList) index ↔ index ∈ bins) ∧
      (∀ ranges, Maximal ranges → (∀ index, Covers ranges index ↔ index ∈ bins) →
        ranges = binRanges bins.sortedList) ∧
      ∀ others : Finset ℤ, binRanges others.sortedList = binRanges bins.sortedList →
        others = bins := by
  have hcovers (s : Finset ℤ) (index : ℤ) :
      Covers (binRanges s.sortedList) index ↔ index ∈ s := by
    rw [(binRanges_maximal s.pairwise_sortedList).2, mem_sortedList]
  have hmaximal := (binRanges_maximal bins.pairwise_sortedList).1
  refine ⟨hmaximal, hcovers bins, ?_, ?_⟩
  · intro ranges hranges hsame
    apply hranges.unique hmaximal
    exact fun index => (hsame index).trans (hcovers bins index).symm
  · intro others heq
    ext index
    rw [← hcovers others, heq, hcovers bins]

example : binRanges [0, 2, 3, 4, 7] = [⟨0, 0⟩, ⟨2, 4⟩, ⟨7, 7⟩] := by decide

end OpenADA.Spectral

import OpenADA.Pdk.Diode
import OpenADA.Library.ExceptFold
import Mathlib.Analysis.SpecialFunctions.Pow.Real

/-! The conversions of a diode's geometry in exact arithmetic. -/
namespace OpenADA.Pdk

/-- The arithmetic of the real numbers, where every number is its own text. -/
noncomputable def exactArithmetic : CardArithmetic ℝ ℝ where
  parse := .ok
  print := .ok
  constant q := q
  add := (· + ·)
  sub := (· - ·)
  mul := (· * ·)
  div := (· / ·)
  sqrt := Real.sqrt
  isFinite _ := true
  le a b := decide (a ≤ b)
  lt a b := decide (a < b)

section Operations

variable (a b : ℝ)

@[simp] theorem exact_parse : exactArithmetic.parse a = .ok a := rfl

@[simp] theorem exact_print : exactArithmetic.print a = .ok a := rfl

@[simp] theorem exact_constant (q : ℚ) : exactArithmetic.constant q = q := rfl

@[simp] theorem exact_add : exactArithmetic.add a b = a + b := rfl

@[simp] theorem exact_mul : exactArithmetic.mul a b = a * b := rfl

@[simp] theorem exact_sqrt : exactArithmetic.sqrt a = Real.sqrt a := rfl

end Operations

def InWindow (value : ℝ) : Prop := 1 / 10 ^ 60 ≤ value ∧ value ≤ 10 ^ 60

def TakesArea (accepted : List String) : Prop := "area" ∈ accepted ∧ "pj" ∈ accepted

def TakesSides (accepted : List String) : Prop :=
  "w" ∈ accepted ∧ "l" ∈ accepted ∧ "area" ∉ accepted

theorem inWindow_iff {value : ℝ} : exactArithmetic.inWindow value = true ↔ InWindow value := by
  simp [CardArithmetic.inWindow, exactArithmetic, InWindow]

theorem InWindow.pos {value : ℝ} (h : InWindow value) : 0 < value :=
  lt_of_lt_of_le (by positivity) h.1

theorem isLength_iff {value : ℝ} : exactArithmetic.isLength value = true ↔ 0 < value := by
  simp [CardArithmetic.isLength, exactArithmetic]

theorem InWindow.sqrt {value : ℝ} (h : InWindow value) : InWindow (Real.sqrt value) := by
  constructor
  · apply Real.le_sqrt_of_sq_le
    calc (1 / 10 ^ 60 : ℝ) ^ 2 ≤ 1 / 10 ^ 60 := by norm_num
      _ ≤ value := h.1
  · rw [Real.sqrt_le_iff]
    refine ⟨by positivity, h.2.trans ?_⟩
    norm_num

section Rectangle

variable {area perimeter : ℝ}

noncomputable def longSide (area perimeter : ℝ) : ℝ :=
  (perimeter / 2 + Real.sqrt (perimeter / 2 * (perimeter / 2) - 4 * area)) / 2

theorem longSide_pos (hperimeter : 0 < perimeter) : 0 < longSide area perimeter := by
  have hroot := Real.sqrt_nonneg (perimeter / 2 * (perimeter / 2) - 4 * area)
  unfold longSide
  linarith

theorem rectangle_exact (hperimeter : 0 < perimeter) :
    exactArithmetic.rectangle area perimeter =
      if 0 ≤ perimeter / 2 * (perimeter / 2) - 4 * area then
        some (longSide area perimeter, area / longSide area perimeter)
      else none := by
  have hlong := @longSide_pos area perimeter hperimeter
  unfold longSide at hlong
  simp [CardArithmetic.rectangle, exactArithmetic, longSide, hlong]

theorem longSide_add (hperimeter : 0 < perimeter)
    (h : 0 ≤ perimeter / 2 * (perimeter / 2) - 4 * area) :
    2 * (longSide area perimeter + area / longSide area perimeter) = perimeter := by
  have hlong : longSide area perimeter ≠ 0 := (longSide_pos hperimeter).ne'
  have hsquare := Real.mul_self_sqrt h
  have hroots : longSide area perimeter * longSide area perimeter + area =
      perimeter / 2 * longSide area perimeter := by
    unfold longSide
    linear_combination hsquare / 4
  have hdivided : longSide area perimeter + area / longSide area perimeter = perimeter / 2 := by
    field_simp
    linarith
  rw [hdivided]
  ring

theorem discriminant_eq (width length : ℝ) :
    2 * (width + length) / 2 * (2 * (width + length) / 2) - 4 * (width * length) =
      (width - length) ^ 2 := by
  ring

theorem longSide_rectangle (width length : ℝ) :
    longSide (width * length) (2 * (width + length)) = max width length := by
  rw [longSide, discriminant_eq, Real.sqrt_sq_eq_abs]
  rcases le_total width length with hle | hle
  · rw [max_eq_right hle, abs_of_nonpos (by linarith)]
    ring
  · rw [max_eq_left hle, abs_of_nonneg (by linarith)]
    ring

theorem div_max {width : ℝ} (hwidth : 0 < width) (length : ℝ) :
    width * length / max width length = min width length := by
  have hmax : max width length ≠ 0 := (lt_max_of_lt_left hwidth).ne'
  rw [div_eq_iff hmax, mul_comm (min width length), max_mul_min]

end Rectangle

section Conversions

variable {accepted : List String} {supplied : InsertionDict String ℝ} {width length area : ℝ}

theorem areaOfSides_exact (hpj : "pj" ∈ accepted) (hnoPerimeter : supplied.get? "pj" = none)
    (harea : InWindow (width * length)) (hperimeter : InWindow (2 * (width + length))) :
    ∃ sized note, exactArithmetic.areaOfSides accepted supplied width length = .ok (sized, note) ∧
      sized.get? "area" = some (width * length) ∧
      sized.get? "pj" = some (2 * (width + length)) ∧ sized.get? "w" = none := by
  let sized := (((supplied.set "area" (width * length)).set "pj"
    (2 * (width + length))).erase "w").erase "l"
  have hderived : exactArithmetic.areaOfSides accepted supplied width length =
      .ok (sized.leading ["area", "pj"],
        some (.fromSides (width * length) (some (2 * (width + length))))) := by
    unfold CardArithmetic.areaOfSides
    simp only [exact_parse, exact_print, exact_mul, exact_add, exact_constant, Except.ok_bind,
      Rat.cast_ofNat, inWindow_iff.mpr harea, inWindow_iff.mpr hperimeter]
    simp [hpj, hnoPerimeter, sized]
  exact ⟨_, _, hderived, by simp [sized], by simp [sized], by simp [sized]⟩

theorem derive_area (htakes : TakesArea accepted) (hw : supplied.get? "w" = some width)
    (hl : supplied.get? "l" = some length) (hnoArea : supplied.get? "area" = none)
    (hnoPerimeter : supplied.get? "pj" = none) (harea : InWindow (width * length))
    (hperimeter : InWindow (2 * (width + length))) :
    ∃ sized note, deriveDiodeGeometry exactArithmetic accepted supplied = .ok (sized, note) ∧
      sized.get? "area" = some (width * length) ∧
      sized.get? "pj" = some (2 * (width + length)) ∧ sized.get? "w" = none := by
  obtain ⟨sized, note, hderived, hsized, hrest⟩ :=
    areaOfSides_exact htakes.2 hnoPerimeter harea hperimeter
  refine ⟨sized, note, ?_, hsized, hrest⟩
  unfold deriveDiodeGeometry
  simp only [hnoArea, hw, hl, if_pos htakes.1, hderived, Except.ok_bind, requiredGeometry]
  rw [if_pos]
  simp [hsized]

theorem sidesFromArea_exact {square : Option SquareReason}
    (hsides : exactArithmetic.sidesOfArea area (supplied.get? "pj") = (width, length, square))
    (hwidth : InWindow width) :
    ∃ sided note, exactArithmetic.sidesFromArea supplied area = .ok (sided, note) ∧
      sided.get? "w" = some width ∧ sided.get? "l" = some length := by
  let sided := (((supplied.set "w" width).set "l" length).erase "area").erase "pj"
  have hread : (supplied.get? "pj").mapM exactArithmetic.parse =
      (.ok (supplied.get? "pj") : Except BindFault (Option ℝ)) := by
    cases supplied.get? "pj" <;> rfl
  have hderived : exactArithmetic.sidesFromArea supplied area =
      .ok (sided.leading ["w", "l"],
        some (.fromArea (supplied.get? "pj").isSome width length square)) := by
    unfold CardArithmetic.sidesFromArea
    simp only [exact_parse, hread, Except.ok_bind, hsides, inWindow_iff.mpr hwidth, if_true,
      exact_print, sided]
  exact ⟨_, _, hderived, by simp [sided], by simp [sided]⟩

theorem derive_sides (htakes : TakesSides accepted) (harea : supplied.get? "area" = some area)
    (hnoSides : supplied.get? "w" = none ∨ supplied.get? "l" = none)
    {square : Option SquareReason}
    (hsides : exactArithmetic.sidesOfArea area (supplied.get? "pj") = (width, length, square))
    (hwidth : InWindow width) :
    ∃ sided note, deriveDiodeGeometry exactArithmetic accepted supplied = .ok (sided, note) ∧
      sided.get? "w" = some width ∧ sided.get? "l" = some length := by
  obtain ⟨sided, note, hderived, hw, hl⟩ := sidesFromArea_exact hsides hwidth
  refine ⟨sided, note, ?_, hw, hl⟩
  have hmissing : ¬ ((supplied.get? "w").isSome = true ∧ (supplied.get? "l").isSome = true) := by
    rcases hnoSides with hnone | hnone <;> simp [hnone]
  unfold deriveDiodeGeometry
  simp only [harea, if_pos (And.intro htakes.1 (And.intro htakes.2.1 hmissing)), hderived,
    Except.ok_bind, requiredGeometry, if_neg htakes.2.2]
  rw [if_pos]
  simp [htakes.1, htakes.2.1, hw, hl]

end Conversions

section Sides

variable {area perimeter : ℝ}

def HasRectangle (area perimeter : ℝ) : Prop :=
  ∃ width length, InWindow width ∧ InWindow length ∧ width * length = area ∧
    2 * (width + length) = perimeter

/-- There is a rectangle in the window just where the discriminant is not negative and the sides
that it gives are in the window. -/
theorem hasRectangle_iff (harea : 0 < area) (hperimeter : 0 < perimeter) :
    HasRectangle area perimeter ↔ 0 ≤ perimeter / 2 * (perimeter / 2) - 4 * area ∧
      InWindow (longSide area perimeter) ∧ InWindow (area / longSide area perimeter) := by
  constructor
  · rintro ⟨width, length, hwidth, hlength, rfl, rfl⟩
    rw [longSide_rectangle, div_max hwidth.pos, discriminant_eq]
    refine ⟨sq_nonneg _, ?_, ?_⟩
    · rcases max_choice width length with h | h <;> rw [h] <;> assumption
    · rcases min_choice width length with h | h <;> rw [h] <;> assumption
  · rintro ⟨hdiscriminant, hlong, hshort⟩
    refine ⟨_, _, hlong, hshort, mul_div_cancel₀ area hlong.pos.ne', ?_⟩
    exact longSide_add hperimeter hdiscriminant

theorem sidesOfArea_exact (harea : InWindow area) (hperimeter : 0 < perimeter) :
    (HasRectangle area perimeter ∧ exactArithmetic.sidesOfArea area (some perimeter) =
      (longSide area perimeter, area / longSide area perimeter, none)) ∨
    (¬ HasRectangle area perimeter ∧ ∃ reason, exactArithmetic.sidesOfArea area (some perimeter) =
      (Real.sqrt area, Real.sqrt area, some reason)) := by
  rw [hasRectangle_iff harea.pos hperimeter]
  have hlong := @longSide_pos area perimeter hperimeter
  have hshort : 0 < area / longSide area perimeter := div_pos harea.pos hlong
  simp only [CardArithmetic.sidesOfArea, rectangle_exact hperimeter, exact_sqrt]
  by_cases hdiscriminant : 0 ≤ perimeter / 2 * (perimeter / 2) - 4 * area
  · simp only [if_pos hdiscriminant, isLength_iff.mpr hlong, isLength_iff.mpr hshort,
      Bool.and_self, if_true]
    by_cases hwindow : InWindow (longSide area perimeter) ∧
        InWindow (area / longSide area perimeter)
    · refine Or.inl ⟨⟨hdiscriminant, hwindow⟩, if_pos ?_⟩
      rw [inWindow_iff.mpr hwindow.1, inWindow_iff.mpr hwindow.2, Bool.and_self]
    · refine Or.inr ⟨fun h => hwindow h.2, .outOfWindow, if_neg ?_⟩
      rwa [Bool.and_eq_true, inWindow_iff, inWindow_iff]
  · simp only [if_neg hdiscriminant]
    exact Or.inr ⟨fun h => hdiscriminant h.1, _, rfl⟩

end Sides

/-- The conversions of a diode's geometry in exact arithmetic. The sides of a rectangle in the
window come back from its area and perimeter. For an area in the window, the derived sides have that
area, and the perimeter too where a rectangle in the window has both; else they are those of the
square. -/
theorem diode_geometry_exact :
    (∀ (byArea bySides : List String) (supplied : InsertionDict String ℝ) (width length : ℝ),
      TakesArea byArea → TakesSides bySides →
      supplied.get? "w" = some width → supplied.get? "l" = some length →
      supplied.get? "area" = none → supplied.get? "pj" = none →
      InWindow width → InWindow length →
      InWindow (width * length) → InWindow (2 * (width + length)) →
      ∃ sized sided first second,
        deriveDiodeGeometry exactArithmetic byArea supplied = .ok (sized, first) ∧
        deriveDiodeGeometry exactArithmetic bySides sized = .ok (sided, second) ∧
        sized.get? "area" = some (width * length) ∧
        sized.get? "pj" = some (2 * (width + length)) ∧
        sided.get? "w" = some (max width length) ∧ sided.get? "l" = some (min width length)) ∧
    ∀ (bySides : List String) (supplied : InsertionDict String ℝ) (area : ℝ),
      TakesSides bySides → supplied.get? "area" = some area →
      (supplied.get? "w" = none ∨ supplied.get? "l" = none) →
      InWindow area → (∀ perimeter ∈ supplied.get? "pj", InWindow perimeter) →
      ∃ sided note width length,
        deriveDiodeGeometry exactArithmetic bySides supplied = .ok (sided, note) ∧
        sided.get? "w" = some width ∧ sided.get? "l" = some length ∧
        InWindow width ∧ InWindow length ∧ width * length = area ∧
        (∀ perimeter ∈ supplied.get? "pj", HasRectangle area perimeter →
          2 * (width + length) = perimeter) ∧
        ((∀ perimeter ∈ supplied.get? "pj", ¬ HasRectangle area perimeter) →
          width = Real.sqrt area ∧ length = Real.sqrt area) := by
  constructor
  · intro byArea bySides supplied width length harea hsides hw hl hnoArea hnoPerimeter hwidth
      hlength hareaWindow hperimeterWindow
    obtain ⟨sized, first, hfirst, hsized, hperimeter, hnoWidth⟩ :=
      derive_area harea hw hl hnoArea hnoPerimeter hareaWindow hperimeterWindow
    have hrectangle : HasRectangle (width * length) (2 * (width + length)) :=
      ⟨width, length, hwidth, hlength, rfl, rfl⟩
    rcases sidesOfArea_exact hareaWindow hperimeterWindow.pos with
      ⟨-, hderived⟩ | ⟨hnone, -⟩
    · rw [longSide_rectangle, div_max hwidth.pos] at hderived
      have hlong : InWindow (max width length) := by
        rcases max_choice width length with h | h <;> rw [h] <;> assumption
      obtain ⟨sided, second, hsecond, hlongSide, hshortSide⟩ :=
        derive_sides hsides hsized (Or.inl hnoWidth) (by rw [hperimeter]; exact hderived) hlong
      exact ⟨sized, sided, first, second, hfirst, hsecond, hsized, hperimeter, hlongSide,
        hshortSide⟩
    · exact absurd hrectangle hnone
  · intro bySides supplied area hsides harea hnoSides hwindow hperimeters
    have hroot := hwindow.sqrt
    have hsquare : Real.sqrt area * Real.sqrt area = area := Real.mul_self_sqrt hwindow.pos.le
    cases hpj : supplied.get? "pj" with
    | none =>
      obtain ⟨sided, note, hderived, hw, hl⟩ := derive_sides hsides harea hnoSides
        (by rw [hpj]; rfl) hroot
      exact ⟨sided, note, _, _, hderived, hw, hl, hroot, hroot, hsquare, by simp, by simp⟩
    | some perimeter =>
      have hpositive := (hperimeters perimeter hpj).pos
      rcases sidesOfArea_exact hwindow hpositive with
        ⟨hrectangle, hderived⟩ | ⟨hnone, reason, hderived⟩
      · obtain ⟨hdiscriminant, hlong, hshort⟩ :=
          (hasRectangle_iff hwindow.pos hpositive).mp hrectangle
        obtain ⟨sided, note, hsided, hw, hl⟩ := derive_sides hsides harea hnoSides
          (by rw [hpj]; exact hderived) hlong
        refine ⟨sided, note, _, _, hsided, hw, hl, hlong, hshort,
          mul_div_cancel₀ area hlong.pos.ne', ?_, ?_⟩
        · intro given hgiven _
          obtain rfl := Option.some.inj hgiven
          exact longSide_add hpositive hdiscriminant
        · intro hnot
          exact absurd hrectangle (hnot perimeter rfl)
      · obtain ⟨sided, note, hsided, hw, hl⟩ := derive_sides hsides harea hnoSides
          (by rw [hpj]; exact hderived) hroot
        refine ⟨sided, note, _, _, hsided, hw, hl, hroot, hroot, hsquare, ?_, fun _ => ⟨rfl, rfl⟩⟩
        intro given hgiven hrectangle
        obtain rfl := Option.some.inj hgiven
        exact absurd hrectangle hnone

/-- A rectangle whose area and perimeter are in the window and whose short side is not: it comes
back as a square. -/
theorem narrow_rectangle_squared :
    ∃ (width length : ℝ) (sized sided : InsertionDict String ℝ)
      (first second : Option (DiodeDerivation ℝ)),
      0 < width ∧ 0 < length ∧ InWindow (width * length) ∧ InWindow (2 * (width + length)) ∧
      deriveDiodeGeometry exactArithmetic ["area", "pj"]
        (.ofList [("w", width), ("l", length)]) = .ok (sized, first) ∧
      deriveDiodeGeometry exactArithmetic ["w", "l"] sized = .ok (sided, second) ∧
      sided.get? "w" ≠ some (max width length) := by
  have harea : InWindow (1 / 10 ^ 65 * 10 ^ 50) := by
    constructor <;> norm_num
  have hperimeter : InWindow (2 * (1 / 10 ^ 65 + 10 ^ 50)) := by
    constructor <;> norm_num
  have hnone : ¬ HasRectangle (1 / 10 ^ 65 * 10 ^ 50) (2 * (1 / 10 ^ 65 + 10 ^ 50)) := by
    rw [hasRectangle_iff harea.pos hperimeter.pos, longSide_rectangle,
      div_max (by positivity : (0 : ℝ) < 1 / 10 ^ 65)]
    rintro ⟨-, -, hshort, -⟩
    have hmin : min (1 / 10 ^ 65 : ℝ) (10 ^ 50) = 1 / 10 ^ 65 := min_eq_left (by norm_num)
    rw [hmin] at hshort
    norm_num at hshort
  have htakesArea : TakesArea ["area", "pj"] := ⟨by simp, by simp⟩
  have htakesSides : TakesSides ["w", "l"] := ⟨by simp, by simp, by simp⟩
  let card : InsertionDict String ℝ := .ofList [("w", 1 / 10 ^ 65), ("l", 10 ^ 50)]
  have hwidth : card.get? "w" = some (1 / 10 ^ 65) := rfl
  have hlength : card.get? "l" = some (10 ^ 50) := rfl
  obtain ⟨sized, first, hfirst, hsized, hpj, hw⟩ :=
    derive_area htakesArea hwidth hlength rfl rfl harea hperimeter
  rcases sidesOfArea_exact harea hperimeter.pos with ⟨hrectangle, -⟩ | ⟨-, reason, hderived⟩
  · exact absurd hrectangle hnone
  obtain ⟨sided, second, hsecond, hside, -⟩ :=
    derive_sides htakesSides hsized (Or.inl hw) (by rw [hpj]; exact hderived) harea.sqrt
  refine ⟨_, _, sized, sided, first, second, by positivity, by positivity, harea, hperimeter,
    hfirst, hsecond, ?_⟩
  rw [hside]
  intro hequal
  have hroot := Option.some.inj hequal
  rw [max_eq_right (by norm_num : (1 / 10 ^ 65 : ℝ) ≤ 10 ^ 50),
    Real.sqrt_eq_iff_mul_self_eq harea.pos.le (by positivity)] at hroot
  norm_num at hroot

end OpenADA.Pdk

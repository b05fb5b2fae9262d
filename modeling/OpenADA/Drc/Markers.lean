import OpenADA.Library.InsertionDict
import Mathlib.Data.Rat.Floor
import Mathlib.Data.String.Basic

/-! The marker examples of a normalised DRC report: the distinct bounding boxes of its violations. -/
namespace OpenADA.Drc

structure Box where
  left : ℚ
  bottom : ℚ
  right : ℚ
  top : ℚ
  deriving DecidableEq

inductive Geometry where
  | box (x₀ y₀ x₁ y₁ : ℚ)
  | polygon (pairs : List (ℚ × ℚ))
  | edgePair (pairs : List (ℚ × ℚ))
  | unknown

def Geometry.type : Geometry → String
  | .box .. => "box"
  | .polygon _ => "polygon"
  | .edgePair _ => "edge-pair"
  | .unknown => "unknown"

structure Violation where
  category : String
  cell : String
  description : String
  waived : Bool
  multiplicity : ℕ
  geometries : List Geometry

structure Marker where
  category : String
  cell : String
  sourceCells : List String
  multiplicity : ℕ
  waived : Bool
  box : Box
  description : String
  geometryTypes : List String
  deriving DecidableEq

def pairsBox : List (ℚ × ℚ) → Option Box
  | [] => none
  | first :: rest => some <| rest.foldl
    (fun b p => ⟨min b.left p.1, min b.bottom p.2, max b.right p.1, max b.top p.2⟩)
    ⟨first.1, first.2, first.1, first.2⟩

/-- `_geometry_box`. -/
def geometryBox : Geometry → Option Box
  | .box x₀ y₀ x₁ y₁ => some ⟨min x₀ x₁, min y₀ y₁, max x₀ x₁, max y₀ y₁⟩
  | .polygon pairs => pairsBox pairs
  | .edgePair pairs => pairsBox pairs
  | .unknown => none

/-- `source_cell.split(":", 1)[0]`. -/
def baseCell (cell : String) : String := String.ofList (cell.toList.takeWhile fun c => c ≠ ':')

abbrev MarkerKey := String × String × Box × Bool

def addOnce (item : String) (items : List String) : List String :=
  if item ∈ items then items else items ++ [item]

def addGeometry (violation : Violation) (unique : InsertionDict MarkerKey Marker)
    (geometry : Geometry) : InsertionDict MarkerKey Marker :=
  match geometryBox geometry with
  | none => unique
  | some box =>
    let cell := baseCell violation.cell
    unique.modify (violation.category, cell, box, violation.waived)
      ⟨violation.category, cell, [], 0, violation.waived, box, violation.description, []⟩
      fun marker => { marker with
        geometryTypes := addOnce geometry.type marker.geometryTypes
        sourceCells := addOnce violation.cell marker.sourceCells
        multiplicity := max marker.multiplicity violation.multiplicity }

/-- `_marker_examples`, without the identifiers `m0`, `m1` and so on. -/
def markerExamples (violations : List Violation) : List Marker :=
  let unique := violations.foldl (fun unique violation =>
    violation.geometries.foldl (addGeometry violation) unique) InsertionDict.empty
  unique.entries.map fun entry => { entry.2 with
    sourceCells := entry.2.sourceCells.insertionSort (· ≤ ·)
    geometryTypes := entry.2.geometryTypes.insertionSort (· ≤ ·) }

def Marker.key (marker : Marker) : MarkerKey :=
  (marker.category, marker.cell, marker.box, marker.waived)

def Keyed (unique : InsertionDict MarkerKey Marker) : Prop :=
  ∀ entry ∈ unique.entries, entry.2.key = entry.1

theorem Keyed.addGeometry {violation : Violation} {unique : InsertionDict MarkerKey Marker}
    (h : Keyed unique) (geometry : Geometry) : Keyed (addGeometry violation unique geometry) := by
  unfold Drc.addGeometry
  cases geometryBox geometry with
  | none => exact h
  | some box =>
    intro entry hentry
    have hget := InsertionDict.get?_eq_some_iff.mpr hentry
    simp only [InsertionDict.modify, InsertionDict.get?_set] at hget
    split_ifs at hget with hkey
    · rw [hkey, ← Option.some.inj hget]
      cases hold : unique.get? (violation.category, baseCell violation.cell, box,
          violation.waived) with
      | none => rfl
      | some marker => exact h _ (InsertionDict.get?_eq_some_iff.mp hold)
    · exact h entry (InsertionDict.get?_eq_some_iff.mp hget)

theorem markerExamples_keys (violations : List Violation) :
    ((markerExamples violations).map Marker.key).Nodup := by
  have hgeometries (violation : Violation) (geometries : List Geometry)
      (unique : InsertionDict MarkerKey Marker) (h : Keyed unique) :
      Keyed (geometries.foldl (Drc.addGeometry violation) unique) := by
    induction geometries generalizing unique with
    | nil => exact h
    | cons geometry rest ih => exact ih _ (h.addGeometry geometry)
  have hviolations (rest : List Violation) (unique : InsertionDict MarkerKey Marker)
      (h : Keyed unique) : Keyed (rest.foldl (fun unique violation =>
        violation.geometries.foldl (Drc.addGeometry violation) unique) unique) := by
    induction rest generalizing unique with
    | nil => exact h
    | cons violation rest ih => exact ih _ (hgeometries violation _ unique h)
  have hkeyed := hviolations violations InsertionDict.empty fun _ h => absurd h List.not_mem_nil
  rw [markerExamples, List.map_map]
  refine (List.map_congr_left fun entry hentry => ?_) ▸ InsertionDict.keys_nodup _
  exact (hkeyed entry hentry).symm

end OpenADA.Drc

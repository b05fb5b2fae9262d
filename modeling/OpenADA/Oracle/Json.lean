import OpenADA.Library.ExceptFold
import OpenADA.Library.PyFloat

/-! In-process JSON values and the strict walk the comparator makes over each of its inputs. -/
namespace OpenADA.Oracle

/-- A JSON-compatible Python value. Integers and floats are different values. -/
inductive Json (F : Type) where
  | null
  | bool (value : Bool)
  | int (value : ℤ)
  | float (value : F)
  | str (text : String)
  | array (items : List (Json F))
  | object (fields : List (String × Json F))

def maxSequenceItems : ℕ := 1000000

def maxJsonDepth : ℕ := 64

def maxJsonNodes : ℕ := 2000000

variable {F : Type} [PyFloat F]

def enter (label path : String) (depth nodes : ℕ) : Except String ℕ :=
  if maxJsonNodes < nodes + 1 then .error s!"{label}{path}: JSON node limit exceeded"
  else if maxJsonDepth < depth then .error s!"{label}{path}: JSON nesting exceeds 64"
  else .ok (nodes + 1)

mutual

/-- The visitor of `_strict_json`: the number of nodes seen so far, or the first refusal. -/
def visit (label : String) : Json F → String → ℕ → ℕ → Except String ℕ
  | .null, path, depth, nodes => enter label path depth nodes
  | .bool _, path, depth, nodes => enter label path depth nodes
  | .int _, path, depth, nodes => enter label path depth nodes
  | .str _, path, depth, nodes => enter label path depth nodes
  | .float value, path, depth, nodes => do
    let seen ← enter label path depth nodes
    if PyFloat.isFinite value then .ok seen
    else .error s!"{label}{path}: JSON numbers must be finite"
  | .array items, path, depth, nodes => do
    let seen ← enter label path depth nodes
    if maxSequenceItems < items.length then
      .error s!"{label}{path}: JSON array is over the item limit"
    else visitItems label items path 0 (depth + 1) seen
  | .object fields, path, depth, nodes => do
    let seen ← enter label path depth nodes
    visitFields label fields path (depth + 1) seen

def visitItems (label : String) : List (Json F) → String → ℕ → ℕ → ℕ → Except String ℕ
  | [], _, _, _, nodes => .ok nodes
  | item :: rest, path, index, depth, nodes => do
    let seen ← visit label item s!"{path}/{index}" depth nodes
    visitItems label rest path (index + 1) depth seen

def visitFields (label : String) : List (String × Json F) → String → ℕ → ℕ → Except String ℕ
  | [], _, _, nodes => .ok nodes
  | (key, child) :: rest, path, depth, nodes => do
    let seen ← visit label child s!"{path}/{key}" depth nodes
    visitFields label rest path depth seen

end

/-- `_strict_json`. -/
def strictJson (value : Json F) (label : String) : Except String Unit := do
  let _ ← visit label value "" 0 0
  .ok ()

mutual

def Json.nodeCount : Json F → ℕ
  | .array items => 1 + itemNodes items
  | .object fields => 1 + fieldNodes fields
  | _ => 1

def itemNodes : List (Json F) → ℕ
  | [] => 0
  | item :: rest => item.nodeCount + itemNodes rest

def fieldNodes : List (String × Json F) → ℕ
  | [] => 0
  | (_, child) :: rest => child.nodeCount + fieldNodes rest

end

mutual

/-- Nesting within a depth budget, arrays within the item limit, and finite numbers. -/
def Json.Bounded : ℕ → Json F → Prop
  | _, .float value => PyFloat.isFinite value = true
  | budget, .array items => items.length ≤ maxSequenceItems ∧ itemsBounded budget items
  | budget, .object fields => fieldsBounded budget fields
  | _, _ => True

def itemsBounded : ℕ → List (Json F) → Prop
  | _, [] => True
  | budget, item :: rest => 0 < budget ∧ item.Bounded (budget - 1) ∧ itemsBounded budget rest

def fieldsBounded : ℕ → List (String × Json F) → Prop
  | _, [] => True
  | budget, (_, child) :: rest =>
    0 < budget ∧ child.Bounded (budget - 1) ∧ fieldsBounded budget rest

end

theorem enter_eq_ok {label path : String} {depth nodes seen : ℕ} :
    enter label path depth nodes = .ok seen ↔
      seen = nodes + 1 ∧ depth ≤ maxJsonDepth ∧ nodes + 1 ≤ maxJsonNodes := by
  unfold enter
  split_ifs with hnodes hdepth
  · simp only [false_iff]
    omega
  · simp only [false_iff]
    omega
  · simp only [Except.ok.injEq]
    omega

omit [PyFloat F] in
theorem nodeCount_pos (value : Json F) : 0 < value.nodeCount := by
  cases value <;> simp only [Json.nodeCount] <;> omega

mutual

/-- The walk succeeds exactly on bounded values with nodes to spare, and counts them. -/
theorem visit_eq_ok (label : String) : ∀ (value : Json F) (path : String) (depth nodes seen : ℕ),
    visit label value path depth nodes = .ok seen ↔
      seen = nodes + value.nodeCount ∧ depth ≤ maxJsonDepth ∧
        value.Bounded (maxJsonDepth - depth) ∧ nodes + value.nodeCount ≤ maxJsonNodes
  | .null, path, depth, nodes, seen => by
    simp only [visit, enter_eq_ok, Json.nodeCount, Json.Bounded, true_and]
  | .bool _, path, depth, nodes, seen => by
    simp only [visit, enter_eq_ok, Json.nodeCount, Json.Bounded, true_and]
  | .int _, path, depth, nodes, seen => by
    simp only [visit, enter_eq_ok, Json.nodeCount, Json.Bounded, true_and]
  | .str _, path, depth, nodes, seen => by
    simp only [visit, enter_eq_ok, Json.nodeCount, Json.Bounded, true_and]
  | .float value, path, depth, nodes, seen => by
    simp only [visit, Except.bind_eq_ok, enter_eq_ok, Json.nodeCount, Json.Bounded]
    cases PyFloat.isFinite value with
    | true =>
      simp only [if_true, Except.ok.injEq]
      grind
    | false => simp
  | .array items, path, depth, nodes, seen => by
    simp only [visit, Except.bind_eq_ok, enter_eq_ok, Json.nodeCount, Json.Bounded]
    constructor
    · rintro ⟨next, ⟨rfl, hdepth, hnodes⟩, h⟩
      split_ifs at h with hlong
      obtain ⟨rfl, hb, hn⟩ :=
        (visitItems_eq_ok label items path 0 depth (nodes + 1) seen hdepth hnodes).mp h
      exact ⟨by omega, hdepth, ⟨not_lt.mp hlong, hb⟩, by omega⟩
    · rintro ⟨rfl, hdepth, ⟨hlong, hb⟩, hn⟩
      refine ⟨nodes + 1, ⟨rfl, hdepth, by omega⟩, ?_⟩
      rw [if_neg (not_lt.mpr hlong)]
      exact (visitItems_eq_ok label items path 0 depth (nodes + 1) _ hdepth (by omega)).mpr
        ⟨by omega, hb, by omega⟩
  | .object fields, path, depth, nodes, seen => by
    simp only [visit, Except.bind_eq_ok, enter_eq_ok, Json.nodeCount, Json.Bounded]
    constructor
    · rintro ⟨next, ⟨rfl, hdepth, hnodes⟩, h⟩
      obtain ⟨rfl, hb, hn⟩ :=
        (visitFields_eq_ok label fields path depth (nodes + 1) seen hdepth hnodes).mp h
      exact ⟨by omega, hdepth, hb, by omega⟩
    · rintro ⟨rfl, hdepth, hb, hn⟩
      refine ⟨nodes + 1, ⟨rfl, hdepth, by omega⟩, ?_⟩
      exact (visitFields_eq_ok label fields path depth (nodes + 1) _ hdepth (by omega)).mpr
        ⟨by omega, hb, by omega⟩

/-- The items of an array at `depth`, visited one level deeper. -/
theorem visitItems_eq_ok (label : String) : ∀ (items : List (Json F)) (path : String)
    (index depth nodes seen : ℕ), depth ≤ maxJsonDepth → nodes ≤ maxJsonNodes →
      (visitItems label items path index (depth + 1) nodes = .ok seen ↔
        seen = nodes + itemNodes items ∧ itemsBounded (maxJsonDepth - depth) items ∧
          nodes + itemNodes items ≤ maxJsonNodes)
  | [], path, index, depth, nodes, seen, _, hnodes => by
    simp only [visitItems, itemNodes, itemsBounded, Except.ok.injEq, true_and, Nat.add_zero]
    exact ⟨fun h => ⟨h.symm, hnodes⟩, fun h => h.1.symm⟩
  | item :: rest, path, index, depth, nodes, seen, hdepth, hnodes => by
    simp only [visitItems, itemNodes, itemsBounded, Except.bind_eq_ok, visit_eq_ok label item]
    constructor
    · rintro ⟨next, ⟨rfl, hd, hb, hn⟩, h⟩
      obtain ⟨rfl, hrest, hn'⟩ :=
        (visitItems_eq_ok label rest path (index + 1) depth _ seen hdepth hn).mp h
      exact ⟨by omega, ⟨by omega, by rwa [Nat.sub_sub], hrest⟩, by omega⟩
    · rintro ⟨rfl, ⟨hpos, hb, hrest⟩, hn⟩
      refine ⟨_, ⟨rfl, by omega, by rwa [Nat.sub_sub] at hb, by omega⟩, ?_⟩
      exact (visitItems_eq_ok label rest path (index + 1) depth _ _ hdepth (by omega)).mpr
        ⟨by omega, hrest, by omega⟩

theorem visitFields_eq_ok (label : String) : ∀ (fields : List (String × Json F)) (path : String)
    (depth nodes seen : ℕ), depth ≤ maxJsonDepth → nodes ≤ maxJsonNodes →
      (visitFields label fields path (depth + 1) nodes = .ok seen ↔
        seen = nodes + fieldNodes fields ∧ fieldsBounded (maxJsonDepth - depth) fields ∧
          nodes + fieldNodes fields ≤ maxJsonNodes)
  | [], path, depth, nodes, seen, _, hnodes => by
    simp only [visitFields, fieldNodes, fieldsBounded, Except.ok.injEq, true_and, Nat.add_zero]
    exact ⟨fun h => ⟨h.symm, hnodes⟩, fun h => h.1.symm⟩
  | (key, child) :: rest, path, depth, nodes, seen, hdepth, hnodes => by
    simp only [visitFields, fieldNodes, fieldsBounded, Except.bind_eq_ok, visit_eq_ok label child]
    constructor
    · rintro ⟨next, ⟨rfl, hd, hb, hn⟩, h⟩
      obtain ⟨rfl, hrest, hn'⟩ :=
        (visitFields_eq_ok label rest path depth _ seen hdepth hn).mp h
      exact ⟨by omega, ⟨by omega, by rwa [Nat.sub_sub], hrest⟩, by omega⟩
    · rintro ⟨rfl, ⟨hpos, hb, hrest⟩, hn⟩
      refine ⟨_, ⟨rfl, by omega, by rwa [Nat.sub_sub] at hb, by omega⟩, ?_⟩
      exact (visitFields_eq_ok label rest path depth _ _ hdepth (by omega)).mpr
        ⟨by omega, hrest, by omega⟩

end

/-- What `_strict_json` admits. -/
theorem strictJson_eq_ok (value : Json F) (label : String) :
    strictJson value label = .ok () ↔
      value.Bounded maxJsonDepth ∧ value.nodeCount ≤ maxJsonNodes := by
  unfold strictJson
  rw [Except.bind_eq_ok]
  constructor
  · rintro ⟨seen, h, _⟩
    obtain ⟨_, _, hb, hn⟩ := (visit_eq_ok label value "" 0 0 seen).mp h
    exact ⟨hb, by omega⟩
  · rintro ⟨hb, hn⟩
    exact ⟨_, (visit_eq_ok label value "" 0 0 _).mpr
      ⟨rfl, Nat.zero_le _, hb, by omega⟩, rfl⟩

end OpenADA.Oracle

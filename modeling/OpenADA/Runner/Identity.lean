import OpenADA.Library.Separated
import OpenADA.Plan.Facts
import OpenADA.Runner.Execute

/-! Condition identifiers. A compiled and a placeholder identifier of any point differ, and both
determine the stage and the point they belong to. -/
namespace OpenADA.Runner

open OpenADA.Plan OpenADA.Compiler

/-- What follows the point in a condition identifier: nothing, or a dotted suffix. -/
def IdTail (tail : String) : Prop := Separated.Tail '.' tail.toList

theorem idTail_empty : IdTail "" := .inl rfl

theorem toList_dot_append (text : String) : ("." ++ text).toList = '.' :: text.toList := by
  rw [String.toList_append]
  rfl

theorem idTail_dot (text : String) : IdTail ("." ++ text) := by
  unfold IdTail
  rw [toList_dot_append]
  exact Separated.tail_cons _ _

def pointName (key : Id × Id) (tail : String) : String := key.1 ++ "." ++ key.2 ++ tail

theorem pointName_inj {k k' : Id × Id} {tail tail' : String} (hs : Dotless k.1) (hp : Dotless k.2)
    (hs' : Dotless k'.1) (hp' : Dotless k'.2) (ht : IdTail tail) (ht' : IdTail tail')
    (h : pointName k tail = pointName k' tail') : k = k' ∧ tail = tail' := by
  have hlist : k.1.toList ++ '.' :: (k.2.toList ++ tail.toList) =
      k'.1.toList ++ '.' :: (k'.2.toList ++ tail'.toList) := by
    have hdot : ".".toList = ['.'] := rfl
    have hl := congrArg String.toList h
    simpa only [pointName, String.toList_append, hdot, List.append_assoc, List.singleton_append,
      List.cons_append, List.nil_append] using hl
  obtain ⟨h1, h2, h3⟩ := Separated.join_inj hs hs' hp hp' ht ht' hlist
  exact ⟨Prod.ext (String.toList_inj.mp h1) (String.toList_inj.mp h2), String.toList_inj.mp h3⟩

def compiledTail (host : Host) : Option (ℕ × ℚ) → String
  | none => ""
  | some sample => "." ++ sampleSuffix host sample

theorem conditionIdentifier_eq (host : Host) (stageId pointId : Id) (sample : Option (ℕ × ℚ)) :
    conditionIdentifier host stageId pointId sample =
      pointName (stageId, pointId) (compiledTail host sample) := by
  cases sample with
  | none => simp [conditionIdentifier, pointName, compiledTail]
  | some sample => simp [conditionIdentifier, pointName, compiledTail, String.append_assoc]

theorem idTail_compiledTail (host : Host) (sample : Option (ℕ × ℚ)) :
    IdTail (compiledTail host sample) := by
  cases sample with
  | none => exact idTail_empty
  | some sample => exact idTail_dot _

end OpenADA.Runner

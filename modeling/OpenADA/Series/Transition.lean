import OpenADA.Series.Crossings

/-! Rise and fall times in exact arithmetic. -/
namespace OpenADA.Series

open PolyLine PyStr
open SignedRat (rat value)

/-- A start of some occurrence, counted from one, and the first end from it on that is before the
next start. -/
def matchEnds {α : Type*} (le lt : α → α → Bool) (starts ends : List α) (occurrence : ℕ) :
    Option (α × α) :=
  starts[occurrence - 1]?.bind fun start =>
    (ends.find? fun item => le start item &&
      (starts[occurrence]?.all fun next => lt item next)).map fun found => (start, found)

section Request

variable {F : Type} [PyFloatMath F]

structure TransitionRequest (F : Type) where
  lower : F
  upper : F
  occurrence : ℕ
  window : Option (F × F)

def readTransition (axis : Axis F) (signal : Signal F) (parameters : PyJson F) :
    Except Fault (TransitionRequest F) := do
  let fields ← closedObject requestInvalid parametersLabel
    ["lower_threshold", "upper_threshold", "occurrence"] ["window"] parameters
  let lower ← quantity "measurement.parameters.lower_threshold" signal.unit.1
    (field fields "lower_threshold")
  let upper ← quantity "measurement.parameters.upper_threshold" signal.unit.1
    (field fields "upper_threshold")
  if PyFloat.le upper.1 lower.1 then refuse requestInvalid "upper_threshold"
  else do
    let occurrence ← occurrenceOf (field fields "occurrence")
    let window ← optionalWindow axis.unit.1 fields
    .ok ⟨lower.1, upper.1, occurrence, window⟩

def transitionOf (rising : Bool) (axis : Axis F) (signal : Signal F)
    (request : TransitionRequest F) : Except Fault (Measured F) := do
  let points := signalPoints axis signal
  let direction : Direction := if rising then .rising else .falling
  let starts ← crossings (if rising then request.lower else request.upper) direction
    request.window points
  let ends ← crossings (if rising then request.upper else request.lower) direction
    request.window points
  let matching := matchEnds PyFloat.le PyFloat.lt starts ends request.occurrence
  .ok ⟨matching.map fun (start, found) => found - start, matching.map Prod.snd, axis.unit.1,
    (pointsInWindow points request.window).length⟩

theorem measureTransition_eq (rising : Bool) (axis : Axis F) (signal : Signal F)
    (parameters : PyJson F) : measureTransition rising axis signal parameters =
      readTransition axis signal parameters >>= transitionOf rising axis signal := by
  unfold measureTransition readTransition
  rw [bind_assoc]
  refine bind_congr fun fields => ?_
  rw [bind_assoc]
  refine bind_congr fun lower => ?_
  rw [bind_assoc]
  refine bind_congr fun upper => ?_
  split
  · rfl
  · rw [bind_assoc]
    refine bind_congr fun occurrence => ?_
    rw [bind_assoc]
    rfl

end Request

section Exact

variable {K : Type*} [Field K] [LinearOrder K]

/-- A passage of the first level, counted from one, and the first later passage of the second one
before the next of the first. -/
def traversal (first second : K) (points : List (K × K)) (occurrence : ℕ) : Option (K × K) :=
  matchEnds (fun a b => decide (a ≤ b)) (fun a b => decide (a < b)) (risingTimes first points)
    (risingTimes second points) occurrence

theorem traversal_traverses [IsStrictOrderedRing K] {line : K → K} {points : List (K × K)}
    {first second start stop : K} {k : ℕ} (h : Increasing points)
    (hline : ∀ p q, (p, q) ∈ segments points → ∀ x, p.1 ≤ x → x ≤ q.1 → line x = lerp p q x)
    (hlevels : first < second)
    (hfound : traversal first second points (k + 1) = some (start, stop)) :
    Traverses line first second start stop := by
  obtain ⟨start', hstart, hfound⟩ := Option.bind_eq_some_iff.mp hfound
  obtain ⟨stop', hstop, hpair⟩ := Option.map_eq_some_iff.mp hfound
  obtain ⟨rfl, rfl⟩ := Prod.mk.inj hpair
  exact traverses h hline hlevels hstart hstop

end Exact

section Points

variable {window : Option (SignedRat × SignedRat)} {points : List (ℚ × ℚ)} {level : ℚ}

def windowed (window : Option (SignedRat × SignedRat)) (points : List (ℚ × ℚ)) : List (ℚ × ℚ) :=
  window.elim points fun bounds => points.filter (within bounds.1.value bounds.2.value)

theorem segments_windowed (h : Increasing points) :
    (segments points).filter (insideWindow window) = segments (windowed window points) := by
  cases window with
  | none => exact List.filter_eq_self.mpr fun _ _ => rfl
  | some bounds => exact segments_filter_within h

theorem increasing_windowed (h : Increasing points) : Increasing (windowed window points) := by
  cases window with
  | none => exact h
  | some bounds => exact h.filter _

theorem windowed_mirrored : windowed window (mirrored points) = mirrored (windowed window points) := by
  cases window with
  | none => rfl
  | some bounds =>
    show (points.map _).filter _ = (points.filter _).map _
    rw [List.filter_map]
    rfl

theorem mirrored_mirrored (points : List (ℚ × ℚ)) : mirrored (mirrored points) = points := by
  unfold mirrored
  rw [List.map_map]
  exact List.map_id'' (fun p => by simp) points

/-- The segment falls through a level where the mirrored one rises through its negation. -/
theorem passageTimes_falling (level : ℚ) (points : List (ℚ × ℚ)) :
    passageTimes .falling level points = risingTimes (-level) (mirrored points) := by
  unfold passageTimes risingTimes mirrored
  rw [segments_map, List.filter_map, List.map_map]
  have hpasses : ((fun segment => decide (Rises (-level) segment)) ∘
      Prod.map (fun p : ℚ × ℚ => (p.1, -p.2)) fun p : ℚ × ℚ => (p.1, -p.2)) =
      passes .falling level := by
    funext segment
    show decide (Rises (-level) _) = decide (Falls level segment)
    rw [decide_eq_decide]
    exact and_congr neg_lt_neg_iff neg_le_neg_iff
  rw [hpasses]
  exact List.map_congr_left fun segment _ => (timeAt_mirrored level segment.1 segment.2).symm

theorem crossings_windowed {direction : Direction} {threshold : SignedRat}
    {points : List (SignedRat × SignedRat)} (h : Increasing (exactPoints points)) :
    crossings threshold direction window points =
      .ok ((passageTimes direction threshold.value (windowed window (exactPoints points))).map
        rat) := by
  have hsplit : ((segments (exactPoints points)).filter fun segment =>
      insideWindow window segment && passes direction threshold.value segment) =
      (segments (windowed window (exactPoints points))).filter
        (passes direction threshold.value) := by
    rw [← segments_windowed h, List.filter_filter]
    exact List.filter_congr fun segment _ => Bool.and_comm _ _
  rw [crossings_exact, hsplit]
  rfl

theorem isIncreasing_pairwise {values : List (FiniteFloat SignedRat)}
    (h : isIncreasing values = true) : values.Pairwise fun x y => x.1.value < y.1.value := by
  induction values with
  | nil => exact List.Pairwise.nil
  | cons x rest ih =>
    cases rest with
    | nil => exact List.pairwise_singleton _ _
    | cons y rest =>
      rw [isIncreasing, Bool.and_eq_true] at h
      have hxy : x.1.value < y.1.value := by
        have hnot : (!decide (y.1.value ≤ x.1.value)) = true := h.1
        rw [Bool.not_eq_true', decide_eq_false_iff_not] at hnot
        exact not_le.mp hnot
      have hrest := ih h.2
      refine List.pairwise_cons.mpr ⟨fun z hz => ?_, hrest⟩
      rcases List.mem_cons.mp hz with rfl | hz
      · exact hxy
      · exact hxy.trans (List.rel_of_pairwise_cons hrest hz)

theorem signalPoints_increasing (axis : Axis SignedRat) (signal : Signal SignedRat) :
    Increasing (exactPoints (signalPoints axis signal)) := by
  have haxis := isIncreasing_pairwise axis.increasing
  unfold Increasing exactPoints signalPoints
  rw [List.pairwise_map]
  generalize axis.values = xs at haxis
  generalize signal.values = ys
  induction xs generalizing ys with
  | nil => exact List.Pairwise.nil
  | cons x xs ih =>
    cases ys with
    | nil => exact List.Pairwise.nil
    | cons y ys =>
      refine List.pairwise_cons.mpr ⟨fun p hp => ?_, ih haxis.of_cons ys⟩
      obtain ⟨z, hz, heq⟩ := List.mem_map.mp (List.of_mem_zip hp).1
      show x.1.value < p.1.value
      rw [← heq]
      exact List.rel_of_pairwise_cons haxis hz

end Points

section Measured

variable {rising : Bool} {axis : Axis SignedRat} {signal : Signal SignedRat}
  {request : TransitionRequest SignedRat}

def foundTransition (rising : Bool) (lower upper : ℚ) (points : List (ℚ × ℚ)) (occurrence : ℕ) :
    Option (ℚ × ℚ) :=
  if rising then traversal lower upper points occurrence
  else traversal (-upper) (-lower) (mirrored points) occurrence

theorem matchEnds_map_rat (starts ends : List ℚ) (occurrence : ℕ) :
    matchEnds PyFloat.le PyFloat.lt (starts.map rat) (ends.map rat) occurrence =
      (matchEnds (fun a b => decide (a ≤ b)) (fun a b => decide (a < b)) starts ends
        occurrence).map (Prod.map rat rat) := by
  unfold matchEnds
  rw [List.getElem?_map, List.getElem?_map]
  cases starts[occurrence - 1]? with
  | none => rfl
  | some start =>
    have hall (item : ℚ) :
        ((starts[occurrence]?.map rat).all fun next => PyFloat.lt (rat item) next) =
          starts[occurrence]?.all fun next => decide (item < next) := by
      cases starts[occurrence]? <;> rfl
    have hgood : ((fun item => PyFloat.le (rat start) item &&
        ((starts[occurrence]?.map rat).all fun next => PyFloat.lt item next)) ∘ rat) =
        fun item => decide (start ≤ item) &&
          (starts[occurrence]?.all fun next => decide (item < next)) := by
      funext item
      show (decide (start ≤ item) && _) = _
      rw [hall]
    simp only [Option.map_some, Option.bind_some]
    rw [List.find?_map, hgood]
    cases ends.find? _ <;> rfl

theorem transitionOf_exact :
    transitionOf rising axis signal request =
      .ok ⟨(foundTransition rising request.lower.value request.upper.value
          (windowed request.window (exactPoints (signalPoints axis signal)))
          request.occurrence).map fun ends => rat (ends.2 - ends.1),
        (foundTransition rising request.lower.value request.upper.value
          (windowed request.window (exactPoints (signalPoints axis signal)))
          request.occurrence).map fun ends => rat ends.2,
        axis.unit.1, (pointsInWindow (signalPoints axis signal) request.window).length⟩ := by
  have hincreasing := signalPoints_increasing axis signal
  unfold transitionOf
  cases rising with
  | true =>
    simp only [if_true, crossings_windowed hincreasing, Except.ok_bind, matchEnds_map_rat,
      Option.map_map]
    rfl
  | false =>
    simp only [Bool.false_eq_true, if_false, crossings_windowed hincreasing, Except.ok_bind,
      matchEnds_map_rat, Option.map_map, passageTimes_falling]
    rfl

end Measured

section Mirrored

/-! The parameters of the turned signal. -/

def negatedNumber : PyJson SignedRat → PyJson SignedRat
  | .int n => .int (-n)
  | .float x => .float (-x)
  | other => other

def negatedQuantity : PyJson SignedRat → PyJson SignedRat
  | .object fields => .object (fields.map fun entry =>
      (entry.1, if entry.1 = lit "value" then negatedNumber entry.2 else entry.2))
  | other => other

def exchangedKey (key : PyStr) : PyStr :=
  if key = lit "lower_threshold" then lit "upper_threshold"
  else if key = lit "upper_threshold" then lit "lower_threshold"
  else key

def mirroredParameters : PyJson SignedRat → PyJson SignedRat
  | .object fields => .object (fields.map fun entry => (exchangedKey entry.1,
      if exchangedKey entry.1 = entry.1 then entry.2 else negatedQuantity entry.2))
  | other => other

def negatedSignal (signal : Signal SignedRat) : Signal SignedRat :=
  { signal with values := signal.values.map fun x => ⟨-x.1, rfl⟩ }

theorem exchangedKey_exchangedKey (key : PyStr) : exchangedKey (exchangedKey key) = key := by
  have hne : lit "upper_threshold" ≠ lit "lower_threshold" := by decide
  unfold exchangedKey
  by_cases hlower : key = lit "lower_threshold"
  · rw [if_pos hlower, if_neg hne, if_pos rfl, hlower]
  · by_cases hupper : key = lit "upper_threshold"
    · rw [if_neg hlower, if_pos hupper, if_pos rfl, hupper]
    · rw [if_neg hlower, if_neg hupper, if_neg hlower, if_neg hupper]

/-- Fields whose keys are renamed one to one are looked up by their new names. -/
theorem lookup_renamed {α β : Type} [BEq α] [LawfulBEq α] {rename : α → α}
    (hrename : Function.Injective rename) (change : α → β → β) (fields : List (α × β)) (key : α) :
    (fields.map fun entry => (rename entry.1, change entry.1 entry.2)).lookup (rename key) =
      (fields.lookup key).map (change key) := by
  induction fields with
  | nil => rfl
  | cons entry rest ih =>
    rw [List.map_cons, List.lookup_cons, List.lookup_cons]
    by_cases hkey : key = entry.1
    · subst hkey
      rw [beq_self_eq_true, beq_self_eq_true]
      rfl
    · rw [beq_false_of_ne hkey, beq_false_of_ne fun h => hkey (hrename h)]
      exact ih

theorem value_neg (x : SignedRat) : (-x).value = -x.value := by
  show (if x = rat 0 then SignedRat.negZero else rat (-x.value)).value = _
  split
  · rename_i h
    rw [h]
    exact neg_zero.symm
  · rfl

variable {label label' : String} {unit : PyStr}

def isClosed (required optional : List String) (fields : Fields SignedRat) : Bool :=
  (required.all fun name => (fields.lookup (lit name)).isSome) &&
    fields.all fun entry => (required ++ optional).any fun name => entry.1 = lit name

theorem closedObject_toOption (code label : String) (required optional : List String)
    (fields : Fields SignedRat) :
    (closedObject code label required optional (.object fields)).toOption =
      if isClosed required optional fields = true then some fields else none := by
  rw [closedObject, isClosed]
  cases required.all fun name => (fields.lookup (lit name)).isSome with
  | false => rfl
  | true =>
    cases fields.all fun entry => (required ++ optional).any fun name => entry.1 = lit name with
    | false => rfl
    | true => rfl

theorem finiteNumber_negated (x : PyJson SignedRat) :
    (finiteNumber requestInvalid label' (negatedNumber x)).toOption.map (fun y => y.1.value) =
      (finiteNumber requestInvalid label x).toOption.map fun y => -y.1.value := by
  cases x with
  | int n => exact congrArg some (Int.cast_neg n)
  | float x => exact congrArg some (value_neg x)
  | _ => rfl

def quantityValue (label : String) (unit : PyStr) (x : PyJson SignedRat) : Option ℚ :=
  (quantity label unit x).toOption.map fun y => y.1.value

theorem quantity_negated (label other : String) (unit : PyStr) (x : PyJson SignedRat) :
    quantityValue other unit (negatedQuantity x) =
      (quantityValue label unit x).map fun y => -y := by
  unfold quantityValue
  rw [Option.map_map]
  show _ = (quantity label unit x).toOption.map fun y => -y.1.value
  cases x with
  | object fields =>
    have hlookup (key : PyStr) : (fields.map fun entry =>
        (entry.1, if entry.1 = lit "value" then negatedNumber entry.2 else entry.2)).lookup key =
        (fields.lookup key).map fun item =>
          if key = lit "value" then negatedNumber item else item :=
      lookup_renamed (fun _ _ h => h) (fun key item =>
        if key = lit "value" then negatedNumber item else item) fields key
    have hclosed : isClosed ["value", "unit"] [] (fields.map fun entry =>
        (entry.1, if entry.1 = lit "value" then negatedNumber entry.2 else entry.2)) =
        isClosed ["value", "unit"] [] fields := by
      simp only [isClosed, List.all_cons, List.all_nil, hlookup, Option.isSome_map, List.all_map,
        Function.comp_def]
    unfold quantity negatedQuantity
    rw [Except.toOption_bind, Except.toOption_bind, closedObject_toOption, closedObject_toOption,
      hclosed]
    cases isClosed ["value", "unit"] [] fields with
    | false => rfl
    | true =>
      simp only [if_true]
      have hunit : field (fields.map fun entry =>
          (entry.1, if entry.1 = lit "value" then negatedNumber entry.2 else entry.2)) "unit" =
          field fields "unit" := by
        unfold field
        have hne : lit "unit" ≠ lit "value" := by decide
        simp only [hlookup, if_neg hne]
        cases fields.lookup (lit "unit") <;> rfl
      have hvalue : field (fields.map fun entry =>
          (entry.1, if entry.1 = lit "value" then negatedNumber entry.2 else entry.2)) "value" =
          negatedNumber (field fields "value") := by
        unfold field
        rw [hlookup]
        cases fields.lookup (lit "value") <;> simp [negatedNumber]
      simp only [Option.bind_some, Except.toOption_bind, hunit, hvalue]
      have htext : (text requestInvalid s!"{other}.unit" 64 (field fields "unit")).toOption =
          (text requestInvalid s!"{label}.unit" 64 (field fields "unit")).toOption := by
        cases field fields "unit" with
        | str t =>
          by_cases hbound : t ≠ [] ∧ t.length ≤ 64
          · simp only [text, dif_pos hbound]
          · simp only [text, dif_neg hbound]
            rfl
        | _ => rfl
      rw [htext]
      cases (text requestInvalid s!"{label}.unit" 64 (field fields "unit")).toOption with
      | none => rfl
      | some t =>
        simp only [Option.bind_some]
        split
        · rfl
        · exact finiteNumber_negated _
  | _ => rfl

def exactMeasured (rising : Bool) (axis : Axis SignedRat) (signal : Signal SignedRat)
    (lower upper : ℚ) (occurrence : ℕ) (window : Option (SignedRat × SignedRat)) :
    Measured SignedRat :=
  let found := foundTransition rising lower upper
    (windowed window (exactPoints (signalPoints axis signal))) occurrence
  ⟨found.map fun ends => rat (ends.2 - ends.1), found.map fun ends => rat ends.2, axis.unit.1,
    (pointsInWindow (signalPoints axis signal) window).length⟩

def measuredOf (rising : Bool) (axis : Axis SignedRat) (signal : Signal SignedRat)
    (lower upper : Option ℚ) (occurrence : Option ℕ)
    (window : Option (Option (SignedRat × SignedRat))) : Option (Measured SignedRat) := do
  let lower ← lower
  let upper ← upper
  if upper ≤ lower then none
  else do
    let occurrence ← occurrence
    let window ← window
    some (exactMeasured rising axis signal lower upper occurrence window)

/-- A rise time or a fall time, in terms of what its parameters are read as. -/
theorem measureTransition_toOption (rising : Bool) (axis : Axis SignedRat)
    (signal : Signal SignedRat) (parameters : PyJson SignedRat) :
    (measureTransition rising axis signal parameters).toOption =
      (closedObject requestInvalid parametersLabel
        ["lower_threshold", "upper_threshold", "occurrence"] ["window"]
        parameters).toOption.bind fun fields =>
      measuredOf rising axis signal
        (quantityValue "measurement.parameters.lower_threshold" signal.unit.1
          (field fields "lower_threshold"))
        (quantityValue "measurement.parameters.upper_threshold" signal.unit.1
          (field fields "upper_threshold"))
        (occurrenceOf (field fields "occurrence")).toOption
        (optionalWindow axis.unit.1 fields).toOption := by
  rw [measureTransition_eq, readTransition, Except.toOption_bind]
  simp only [Except.toOption_bind, Option.bind_assoc]
  refine Option.bind_congr fun fields _ => ?_
  unfold quantityValue
  cases quantity "measurement.parameters.lower_threshold" signal.unit.1
    (field fields "lower_threshold") with
  | error fault => rfl
  | ok lower =>
    cases quantity "measurement.parameters.upper_threshold" signal.unit.1
      (field fields "upper_threshold") with
    | error fault => rfl
    | ok upper =>
      have hle : (PyFloat.le upper.1 lower.1 = true) = (upper.1.value ≤ lower.1.value) :=
        propext decide_eq_true_iff
      simp only [measuredOf, Option.bind_eq_bind]
      simp only [Except.toOption_ok, Option.bind_some, Option.map_some, hle]
      by_cases hval : upper.1.value ≤ lower.1.value
      · rw [if_pos hval, if_pos hval]
        rfl
      · rw [if_neg hval, if_neg hval]
        cases occurrenceOf (field fields "occurrence") with
        | error fault => rfl
        | ok occurrence =>
          cases optionalWindow axis.unit.1 fields with
          | error fault => rfl
          | ok window => exact congrArg Except.toOption transitionOf_exact

def mirroredFields (fields : Fields SignedRat) : Fields SignedRat :=
  fields.map fun entry => (exchangedKey entry.1,
    if exchangedKey entry.1 = entry.1 then entry.2 else negatedQuantity entry.2)

theorem lookup_mirroredFields (fields : Fields SignedRat) (key : PyStr) :
    (mirroredFields fields).lookup (exchangedKey key) = (fields.lookup key).map fun item =>
      if exchangedKey key = key then item else negatedQuantity item :=
  lookup_renamed (Function.LeftInverse.injective exchangedKey_exchangedKey)
    (fun key item => if exchangedKey key = key then item else negatedQuantity item) fields key

theorem lookup_other {fields : Fields SignedRat} {key : PyStr} (h : exchangedKey key = key) :
    (mirroredFields fields).lookup key = fields.lookup key := by
  have hlookup := lookup_mirroredFields fields key
  simp only [h, if_true] at hlookup
  rw [hlookup]
  exact Option.map_id'

theorem field_exchanged {fields : Fields SignedRat} {name other : String}
    (hname : exchangedKey (lit other) = lit name) (hne : lit name ≠ lit other) :
    field (mirroredFields fields) name = negatedQuantity (field fields other) := by
  have hlookup := lookup_mirroredFields fields (lit other)
  rw [hname] at hlookup
  simp only [if_neg hne] at hlookup
  unfold field
  rw [hlookup]
  cases fields.lookup (lit other) <;> rfl

theorem isClosed_mirroredFields (fields : Fields SignedRat) :
    isClosed ["lower_threshold", "upper_threshold", "occurrence"] ["window"]
        (mirroredFields fields) =
      isClosed ["lower_threshold", "upper_threshold", "occurrence"] ["window"] fields := by
  have hlower := lookup_mirroredFields fields (lit "upper_threshold")
  have hupper := lookup_mirroredFields fields (lit "lower_threshold")
  rw [show exchangedKey (lit "upper_threshold") = lit "lower_threshold" by decide] at hlower
  rw [show exchangedKey (lit "lower_threshold") = lit "upper_threshold" by decide] at hupper
  have hother : (mirroredFields fields).lookup (lit "occurrence") =
      fields.lookup (lit "occurrence") := lookup_other (by decide)
  have hnames (key : PyStr) : ((["lower_threshold", "upper_threshold", "occurrence"] ++
      ["window"]).any fun name => exchangedKey key = lit name) =
      (["lower_threshold", "upper_threshold", "occurrence"] ++ ["window"]).any fun name =>
        key = lit name := by
    simp only [List.cons_append, List.nil_append, List.any_cons, List.any_nil]
    by_cases hl : key = lit "lower_threshold"
    · subst hl
      decide
    · by_cases hu : key = lit "upper_threshold"
      · subst hu
        decide
      · rw [exchangedKey, if_neg hl, if_neg hu]
  have hentries : (mirroredFields fields).all (fun entry =>
      (["lower_threshold", "upper_threshold", "occurrence"] ++ ["window"]).any fun name =>
        entry.1 = lit name) = fields.all fun entry =>
      (["lower_threshold", "upper_threshold", "occurrence"] ++ ["window"]).any fun name =>
        entry.1 = lit name := by
    rw [mirroredFields, List.all_map]
    exact congrArg _ (funext fun entry => hnames entry.1)
  unfold isClosed
  rw [hentries]
  simp only [List.all_cons, List.all_nil, hlower, hupper, hother, Option.isSome_map]
  rw [Bool.and_left_comm]

theorem exactPoints_negated (axis : Axis SignedRat) (signal : Signal SignedRat) :
    exactPoints (signalPoints axis (negatedSignal signal)) =
      mirrored (exactPoints (signalPoints axis signal)) := by
  have hvalues : (negatedSignal signal).values.map Subtype.val =
      (signal.values.map Subtype.val).map fun x => -x := by
    unfold negatedSignal
    rw [List.map_map, List.map_map]
    rfl
  have hzip (xs ys : List SignedRat) :
      xs.zip (ys.map fun x => -x) = (xs.zip ys).map (Prod.map id fun x => -x) := by
    rw [← List.map_id xs, List.zip_map, List.map_id]
  unfold exactPoints signalPoints mirrored
  rw [hvalues, hzip, List.map_map, List.map_map]
  exact List.map_congr_left fun p _ => Prod.ext rfl (value_neg p.2)

theorem pointsInWindow_negated (axis : Axis SignedRat) (signal : Signal SignedRat)
    (window : Option (SignedRat × SignedRat)) :
    (pointsInWindow (signalPoints axis (negatedSignal signal)) window).length =
      (pointsInWindow (signalPoints axis signal) window).length := by
  have hcount (points : List (SignedRat × SignedRat)) : (pointsInWindow points window).length =
      (windowed window (exactPoints points)).length := by
    cases window with
    | none => exact (List.length_map _).symm
    | some bounds =>
      show (points.filter _).length = ((points.map _).filter _).length
      rw [List.filter_map, List.length_map]
      rfl
  rw [hcount, hcount, exactPoints_negated, windowed_mirrored]
  exact List.length_map _

theorem exactMeasured_mirrored (axis : Axis SignedRat) (signal : Signal SignedRat)
    (lower upper : ℚ) (occurrence : ℕ) (window : Option (SignedRat × SignedRat)) :
    exactMeasured false axis (negatedSignal signal) (-upper) (-lower) occurrence window =
      exactMeasured true axis signal lower upper occurrence window := by
  unfold exactMeasured foundTransition
  rw [if_neg Bool.false_ne_true, if_pos rfl, exactPoints_negated, windowed_mirrored,
    mirrored_mirrored, neg_neg, neg_neg, pointsInWindow_negated]

theorem measuredOf_mirrored (axis : Axis SignedRat) (signal : Signal SignedRat)
    (lower upper : Option ℚ) (occurrence : Option ℕ)
    (window : Option (Option (SignedRat × SignedRat))) :
    measuredOf false axis (negatedSignal signal) (upper.map fun y => -y) (lower.map fun y => -y)
        occurrence window =
      measuredOf true axis signal lower upper occurrence window := by
  cases lower with
  | none =>
    cases upper with
    | none => simp only [measuredOf, Option.map_none, Option.bind_eq_bind, Option.bind_none]
    | some upper =>
      simp only [measuredOf, Option.map_none, Option.map_some, Option.bind_eq_bind,
        Option.bind_none, Option.bind_some]
  | some lower =>
    cases upper with
    | none =>
      simp only [measuredOf, Option.map_none, Option.map_some, Option.bind_eq_bind,
        Option.bind_none, Option.bind_some]
    | some upper =>
      simp only [measuredOf, Option.map_some, Option.bind_eq_bind, Option.bind_some,
        neg_le_neg_iff, exactMeasured_mirrored]

theorem measureTransition_mirrored (axis : Axis SignedRat) (signal : Signal SignedRat)
    (parameters : PyJson SignedRat) :
    (measureTransition false axis (negatedSignal signal)
        (mirroredParameters parameters)).toOption =
      (measureTransition true axis signal parameters).toOption := by
  rw [measureTransition_toOption, measureTransition_toOption]
  cases parameters with
  | object fields =>
    have hmirrored : mirroredParameters (.object fields) = .object (mirroredFields fields) := rfl
    rw [hmirrored, closedObject_toOption, closedObject_toOption, isClosed_mirroredFields]
    cases isClosed ["lower_threshold", "upper_threshold", "occurrence"] ["window"] fields with
    | false => simp only [Bool.false_eq_true, if_false, Option.bind_none]
    | true =>
      have hlower : field (mirroredFields fields) "lower_threshold" =
          negatedQuantity (field fields "upper_threshold") :=
        field_exchanged (by decide) (by decide)
      have hupper : field (mirroredFields fields) "upper_threshold" =
          negatedQuantity (field fields "lower_threshold") :=
        field_exchanged (by decide) (by decide)
      have hoccurrence : field (mirroredFields fields) "occurrence" =
          field fields "occurrence" := by
        unfold field
        rw [lookup_other (by decide)]
      have hwindow : optionalWindow axis.unit.1 (mirroredFields fields) =
          optionalWindow axis.unit.1 fields := by
        unfold optionalWindow
        rw [lookup_other (by decide)]
      have hunit : (negatedSignal signal).unit = signal.unit := rfl
      simp only [if_true, Option.bind_some]
      rw [hlower, hupper, hoccurrence, hwindow, hunit,
        quantity_negated "measurement.parameters.upper_threshold",
        quantity_negated "measurement.parameters.lower_threshold", measuredOf_mirrored]
  | _ => simp only [mirroredParameters, closedObject, refuse, Except.toOption, Option.bind_none]

end Mirrored

def sampledLine (axis : Axis SignedRat) (signal : Signal SignedRat) : ℚ → ℚ :=
  PolyLine.signal (exactPoints (signalPoints axis signal))

/-- A request that is read has its thresholds in order and an occurrence counted from one. -/
theorem readTransition_bounds {axis : Axis SignedRat} {signal : Signal SignedRat}
    {parameters : PyJson SignedRat} {request : TransitionRequest SignedRat}
    (h : readTransition axis signal parameters = .ok request) :
    request.lower.value < request.upper.value ∧ 1 ≤ request.occurrence := by
  obtain ⟨fields, -, h⟩ := Except.bind_eq_ok.mp h
  obtain ⟨lower, -, h⟩ := Except.bind_eq_ok.mp h
  obtain ⟨upper, -, h⟩ := Except.bind_eq_ok.mp h
  by_cases hle : PyFloat.le upper.1 lower.1 = true
  · rw [if_pos hle] at h
    cases h
  · rw [if_neg hle] at h
    obtain ⟨occurrence, hoccurrence, h⟩ := Except.bind_eq_ok.mp h
    obtain ⟨window, -, h⟩ := Except.bind_eq_ok.mp h
    obtain rfl := Except.ok.inj h
    refine ⟨not_le.mp fun hval => hle (decide_eq_true hval), ?_⟩
    unfold occurrenceOf at hoccurrence
    split at hoccurrence
    · split_ifs at hoccurrence with hbounds
      · obtain rfl := Except.ok.inj hoccurrence
        show 1 ≤ Int.toNat _
        omega
      · cases hoccurrence
    · cases hoccurrence

theorem sampledLine_windowed {axis : Axis SignedRat} {signal : Signal SignedRat}
    {window : Option (SignedRat × SignedRat)} {p q : ℚ × ℚ} {x : ℚ}
    (hmem : (p, q) ∈ segments (windowed window (exactPoints (signalPoints axis signal))))
    (hpx : p.1 ≤ x) (hxq : x ≤ q.1) : sampledLine axis signal x = lerp p q x := by
  have hincreasing := signalPoints_increasing axis signal
  rw [← segments_windowed hincreasing] at hmem
  exact signal_eq_lerp hincreasing (List.mem_filter.mp hmem).1 hpx hxq

theorem foundTransition_traverses {axis : Axis SignedRat} {signal : Signal SignedRat}
    {window : Option (SignedRat × SignedRat)} {lower upper start stop : ℚ} {occurrence : ℕ}
    (hlevels : lower < upper) (hoccurrence : 1 ≤ occurrence) (rising : Bool)
    (hfound : foundTransition rising lower upper
      (windowed window (exactPoints (signalPoints axis signal))) occurrence = some (start, stop)) :
    if rising = true then Traverses (sampledLine axis signal) lower upper start stop
    else Traverses (fun x => -sampledLine axis signal x) (-upper) (-lower) start stop := by
  obtain ⟨k, rfl⟩ := Nat.exists_eq_add_of_le' hoccurrence
  have hincreasing : Increasing (windowed window (exactPoints (signalPoints axis signal))) :=
    increasing_windowed (signalPoints_increasing axis signal)
  cases rising with
  | true =>
    exact traversal_traverses hincreasing
      (fun p q hmem x hpx hxq => sampledLine_windowed hmem hpx hxq) hlevels hfound
  | false =>
    refine traversal_traverses (Increasing.mirrored hincreasing) ?_ (neg_lt_neg hlevels) hfound
    intro p q hmem x hpx hxq
    unfold mirrored at hmem
    rw [segments_map] at hmem
    obtain ⟨⟨r, s⟩, hsegment, heq⟩ := List.mem_map.mp hmem
    obtain ⟨rfl, rfl⟩ := Prod.mk.inj heq
    show -sampledLine axis signal x = _
    rw [sampledLine_windowed hsegment hpx hxq]
    unfold lerp
    ring

/-- A rise time is a traversal of the signal upwards through its thresholds, a fall time one of the
turned signal; and the rise time of a signal is the fall time of the turned signal with the
thresholds negated and exchanged. -/
theorem transition_correct (axis : Axis SignedRat) (signal : Signal SignedRat)
    (parameters : PyJson SignedRat) :
    (∀ request rising measured, readTransition axis signal parameters = .ok request →
      measureTransition rising axis signal parameters = .ok measured →
      measured.value.isSome = measured.location.isSome ∧
      ∀ duration ∈ measured.value, ∀ finish ∈ measured.location,
        if rising = true then
          Traverses (sampledLine axis signal) request.lower.value request.upper.value
            (finish.value - duration.value) finish.value
        else
          Traverses (fun x => -sampledLine axis signal x) (-request.upper.value)
            (-request.lower.value) (finish.value - duration.value) finish.value) ∧
    (measureTransition true axis signal parameters).toOption =
      (measureTransition false axis (negatedSignal signal)
        (mirroredParameters parameters)).toOption := by
  constructor
  · intro request rising measured hread hmeasure
    obtain ⟨hlevels, hoccurrence⟩ := readTransition_bounds hread
    rw [measureTransition_eq, hread, Except.ok_bind, transitionOf_exact] at hmeasure
    obtain rfl := Except.ok.inj hmeasure
    refine ⟨?_, fun duration hduration finish hfinish => ?_⟩
    · rw [Option.isSome_map, Option.isSome_map]
    · obtain ⟨⟨start, stop⟩, hfound, rfl⟩ := Option.map_eq_some_iff.mp hduration
      obtain ⟨ends, hends, rfl⟩ := Option.map_eq_some_iff.mp hfinish
      obtain rfl := Option.some.inj (hfound.symm.trans hends)
      have htraverses := foundTransition_traverses hlevels hoccurrence rising hfound
      show if rising = true then Traverses _ _ _ (stop - (stop - start)) stop
        else Traverses _ _ _ (stop - (stop - start)) stop
      rw [sub_sub_cancel]
      exact htraverses
  · exact (measureTransition_mirrored axis signal parameters).symm

end OpenADA.Series

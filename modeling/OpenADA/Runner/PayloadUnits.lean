import OpenADA.Library.ExceptFold
import OpenADA.Plan.ReductionUnits
import OpenADA.Runner.Run

/-! The physical dimension of every value the measurements of a point store, evaluated along the
measurement kernels, and the declared units it agrees with. -/
namespace OpenADA.Runner

open OpenADA.Plan OpenADA.Compiler

inductive PayloadDimensions where
  | scalar (value : Dimension)
  | curve (x y : Dimension)
  | fit (slope intercept : Dimension)
  | interval (axis : Dimension)
  | signs

def PayloadDimensions.component : PayloadDimensions → BindingComponent → Option Dimension
  | .scalar value, .value | .scalar value, .crossing => some value
  | .fit slope _, .slope => some slope
  | .fit _ intercept, .intercept => some intercept
  | _, _ => none

def PayloadDimensions.magnitude : PayloadDimensions → Option Dimension
  | .scalar value => some value
  | .curve _ y => some y
  | .signs => some 1
  | _ => none

abbrev PayloadIndex := InsertionDict Id PayloadDimensions

/-- The dimensions of one measurement's value: a window integral multiplies by the axis, a fit
divides by it, a crossing is a position on it. -/
def measuredDimensions (probe : Id → Option Dimension) (axis : Dimension) (earlier : PayloadIndex) :
    MeasurementBody → Option PayloadDimensions
  | .curve probeId => (probe probeId).map fun y => .curve axis y
  | .integrate _ probeId .. => (probe probeId).map fun y => .scalar (y * axis)
  | .linearFit inputId .. =>
    match earlier.get? inputId with
    | some (.curve x y) => some (.fit (y / x) y)
    | _ => none
  | .crossing inputId .. =>
    match earlier.get? inputId with
    | some (.curve x _) => some (.scalar x)
    | _ => none
  | .sign inputId _ => ((earlier.get? inputId).bind PayloadDimensions.magnitude).map fun _ => .signs
  | .maxAbs inputId => ((earlier.get? inputId).bind PayloadDimensions.magnitude).map .scalar
  | .mismatchFraction actualId referenceId _ =>
    match earlier.get? actualId, earlier.get? referenceId with
    | some (.scalar _), some (.scalar _) => some (.scalar 1)
    | _, _ => none
  | .complianceInterval inputId .. =>
    match earlier.get? inputId with
    | some (.curve x _) => some (.interval x)
    | _ => none
  | .loopTransfer _ | .unityFrequency _ | .phaseMargin .. => none

def recordMeasured (probe : Id → Option Dimension) (axis : Dimension) (earlier : PayloadIndex)
    (measurement : Measurement) : PayloadIndex :=
  match measuredDimensions probe axis earlier measurement.body with
  | some dims => earlier.set measurement.id dims
  | none => earlier

def probeDimension (plan : PlanDocument) (probeId : Id) : Option Dimension :=
  (plan.probes.find? fun probe => decide (probe.id = probeId)).map fun probe =>
    probe.unit.dimension

def payloadDimensions (plan : PlanDocument) (point : ConditionPoint) : PayloadIndex :=
  point.measurements.foldl
    (recordMeasured (probeDimension plan) point.analysis.axisUnit.dimension) .empty

/-- Whether a value is a window integral, possibly through magnitudes of it. -/
def integralOf (earlier : InsertionDict Id Bool) : MeasurementBody → Bool
  | .integrate .. => true
  | .maxAbs inputId => (earlier.get? inputId).getD false
  | _ => false

def integrals (measurements : List Measurement) : InsertionDict Id Bool :=
  measurements.foldl (fun earlier m => earlier.set m.id (integralOf earlier m.body)) .empty

section Shapes

variable {F : Type} [PyFloat F]

def Shaped : PayloadDimensions → Payload F → Prop
  | .scalar _, .scalar _ => True
  | .curve .., .curve .. => True
  | .fit .., .fit .. => True
  | .interval .., .interval .. => True
  | .signs, .signs _ => True
  | _, _ => False

omit [PyFloat F] in
theorem curveOf_shaped {payload : Payload F} {dims : PayloadDimensions}
    {result : List F × List F} (h : curveOf payload = .ok result) (hs : Shaped dims payload) :
    ∃ x y, dims = .curve x y := by
  cases payload with
  | curve x y =>
    cases dims with
    | curve x y => exact ⟨x, y, rfl⟩
    | _ => exact hs.elim
  | _ => cases h

theorem ordinatesOf_shaped {payload : Payload F} {dims : PayloadDimensions} {result : List F}
    (h : ordinatesOf payload = .ok result) (hs : Shaped dims payload) :
    ∃ d, dims.magnitude = some d := by
  cases payload with
  | fit slope intercept r2 => cases h
  | interval lower upper => cases h
  | _ =>
    cases dims with
    | fit slope intercept => exact hs.elim
    | interval axis => exact hs.elim
    | _ => exact ⟨_, rfl⟩

omit [PyFloat F] in
theorem floatOf_shaped {payload : Payload F} {dims : PayloadDimensions} {result : F}
    (h : floatOf payload = .ok result) (hs : Shaped dims payload) : ∃ d, dims = .scalar d := by
  cases payload with
  | scalar value =>
    cases dims with
    | scalar d => exact ⟨d, rfl⟩
    | _ => exact hs.elim
  | _ => cases h

def ValuesShaped (values : PointValues F) (dims : PayloadIndex) : Prop :=
  ∀ id item, values.get? id = some item → ∃ d, dims.get? id = some d ∧ Shaped d item.value

omit [PyFloat F] in
theorem parentValue_shaped {values : PointValues F} {dims : PayloadIndex} {measurementId id : Id}
    {item : ConditionValue F} (hv : ValuesShaped values dims)
    (h : parentValue values measurementId id = .ok item) :
    ∃ d, dims.get? id = some d ∧ Shaped d item.value := by
  unfold parentValue at h
  cases hget : values.get? id with
  | none => simp [hget] at h
  | some found =>
    rw [hget] at h
    obtain rfl := Except.ok.inj h
    exact hv id found hget

theorem derivedPayload_shaped {plan : PlanDocument} {corner inputId : Id} {body : MeasurementBody}
    {probe : Id → Option Dimension} {axis : Dimension} {earlier : PayloadIndex}
    {parent payload : Payload F} {d : PayloadDimensions}
    (hparent : earlier.get? inputId = some d) (hs : Shaped d parent)
    (hbody : body.parents = [("input_measurement_id", inputId)])
    (h : derivedPayload plan corner body parent = .ok payload) :
    ∃ dims, measuredDimensions probe axis earlier body = some dims ∧ Shaped dims payload := by
  cases body with
  | linearFit id window samples =>
    obtain rfl : id = inputId := by simpa [MeasurementBody.parents] using hbody
    obtain ⟨fitted, hfitted, h⟩ := Except.bind_eq_ok.mp h
    obtain ⟨fit, _, h⟩ := Except.bind_eq_ok.mp h
    obtain ⟨curve, hcurve, _⟩ := Except.bind_eq_ok.mp hfitted
    obtain ⟨x, y, rfl⟩ := curveOf_shaped hcurve hs
    obtain rfl := Except.ok.inj h
    exact ⟨.fit (y / x) y, by simp [measuredDimensions, hparent], trivial⟩
  | crossing id level direction occurrence =>
    obtain rfl : id = inputId := by simpa [MeasurementBody.parents] using hbody
    obtain ⟨curve, hcurve, h⟩ := Except.bind_eq_ok.mp h
    obtain ⟨_, _, h⟩ := Except.bind_eq_ok.mp h
    obtain ⟨_, _, h⟩ := Except.bind_eq_ok.mp h
    obtain ⟨x, y, rfl⟩ := curveOf_shaped hcurve hs
    obtain rfl := Except.ok.inj h
    exact ⟨.scalar x, by simp [measuredDimensions, hparent], trivial⟩
  | sign id zeroTolerance =>
    obtain rfl : id = inputId := by simpa [MeasurementBody.parents] using hbody
    obtain ⟨tolerance, _, h⟩ := Except.bind_eq_ok.mp h
    have hitems : ∃ items, ordinatesOf parent = .ok items ∧
        payload = .signs (items.map (signOf tolerance)) := by
      cases parent with
      | signs values => cases h
      | _ =>
        obtain ⟨items, hitems, h⟩ := Except.bind_eq_ok.mp h
        exact ⟨items, hitems, (Except.ok.inj h).symm⟩
    obtain ⟨items, hitems, rfl⟩ := hitems
    obtain ⟨d', hd⟩ := ordinatesOf_shaped hitems hs
    exact ⟨.signs, by simp [measuredDimensions, hparent, hd], trivial⟩
  | maxAbs id =>
    obtain rfl : id = inputId := by simpa [MeasurementBody.parents] using hbody
    obtain ⟨items, hitems, h⟩ := Except.bind_eq_ok.mp h
    obtain ⟨d', hd⟩ := ordinatesOf_shaped hitems hs
    cases hmax : PyFloat.maxOf (items.map PyFloat.abs) with
    | none => simp [hmax] at h
    | some value =>
      rw [hmax] at h
      obtain rfl := Except.ok.inj h
      exact ⟨.scalar d', by simp [measuredDimensions, hparent, hd], trivial⟩
  | complianceInterval id lower upper =>
    obtain rfl : id = inputId := by simpa [MeasurementBody.parents] using hbody
    obtain ⟨low, _, h⟩ := Except.bind_eq_ok.mp h
    obtain ⟨high, _, h⟩ := Except.bind_eq_ok.mp h
    obtain ⟨curve, hcurve, h⟩ := Except.bind_eq_ok.mp h
    obtain ⟨x, y, rfl⟩ := curveOf_shaped hcurve hs
    have hinterval : ∃ low high, payload = .interval low high := by
      simp only at h
      split at h
      · cases h
      · split at h
        · cases h
        · obtain ⟨first, _, h⟩ := Except.bind_eq_ok.mp h
          obtain ⟨last, _, h⟩ := Except.bind_eq_ok.mp h
          exact ⟨first, last, (Except.ok.inj h).symm⟩
    obtain ⟨_, _, rfl⟩ := hinterval
    exact ⟨.interval x, by simp [measuredDimensions, hparent], trivial⟩
  | _ => cases h

variable {plan : PlanDocument} {corner : Id} {waveform : Waveform F} {probes : ProbeVectors F}
  {baseLineage : IdSet} {probe : Id → Option Dimension} {axis : Dimension}

variable (axis) in
theorem measure_shaped {values : PointValues F} {earlier : PayloadIndex} {measurement : Measurement}
    {item : ConditionValue F} (hv : ValuesShaped values earlier)
    (hprobe : ∀ probeId ∈ measurement.body.probeId?, ∃ d, probe probeId = some d)
    (h : measure plan corner waveform probes baseLineage values measurement = .ok item) :
    ∃ dims, measuredDimensions probe axis earlier measurement.body = some dims ∧
      Shaped dims item.value := by
  have hderived : ∀ parentId, measurement.body.parents = [("input_measurement_id", parentId)] →
      (do
        let parent ← parentValue values measurement.id parentId
        let payload ← derivedPayload plan corner measurement.body parent.value
        .ok ⟨payload, parent.conditionIds⟩ : Except String (ConditionValue F)) = .ok item →
      ∃ dims, measuredDimensions probe axis earlier measurement.body = some dims ∧
        Shaped dims item.value := by
    intro parentId hparents h
    obtain ⟨parent, hparent, h⟩ := Except.bind_eq_ok.mp h
    obtain ⟨payload, hpayload, h⟩ := Except.bind_eq_ok.mp h
    obtain rfl := Except.ok.inj h
    obtain ⟨d, hd, hs⟩ := parentValue_shaped hv hparent
    exact derivedPayload_shaped hd hs hparents hpayload
  unfold measure at h
  cases hbody : measurement.body with
  | curve probeId =>
    rw [hbody] at h hprobe
    obtain ⟨samples, _, h⟩ := Except.bind_eq_ok.mp h
    obtain rfl := Except.ok.inj h
    obtain ⟨d, hd⟩ := hprobe probeId rfl
    exact ⟨.curve axis d, by simp [measuredDimensions, hd], trivial⟩
  | integrate quantity probeId window normalization =>
    rw [hbody] at h hprobe
    obtain ⟨samples, _, h⟩ := Except.bind_eq_ok.mp h
    obtain ⟨integral, _, h⟩ := Except.bind_eq_ok.mp h
    obtain ⟨value, _, h⟩ := Except.bind_eq_ok.mp h
    obtain rfl := Except.ok.inj h
    obtain ⟨d, hd⟩ := hprobe probeId rfl
    exact ⟨.scalar (d * axis), by simp [measuredDimensions, hd], trivial⟩
  | linearFit inputId window samples =>
    rw [hbody] at h hderived
    exact hderived inputId rfl h
  | crossing inputId level direction occurrence =>
    rw [hbody] at h hderived
    exact hderived inputId rfl h
  | sign inputId zeroTolerance =>
    rw [hbody] at h hderived
    exact hderived inputId rfl h
  | maxAbs inputId =>
    rw [hbody] at h hderived
    exact hderived inputId rfl h
  | complianceInterval inputId lower upper =>
    rw [hbody] at h hderived
    exact hderived inputId rfl h
  | mismatchFraction actualId referenceId floor =>
    rw [hbody] at h
    obtain ⟨actual, hactual, h⟩ := Except.bind_eq_ok.mp h
    obtain ⟨reference, hreference, h⟩ := Except.bind_eq_ok.mp h
    obtain ⟨bound, _, h⟩ := Except.bind_eq_ok.mp h
    obtain ⟨left, hleft, h⟩ := Except.bind_eq_ok.mp h
    obtain ⟨right, hright, h⟩ := Except.bind_eq_ok.mp h
    obtain ⟨fraction, _, h⟩ := Except.bind_eq_ok.mp h
    obtain rfl := Except.ok.inj h
    obtain ⟨d1, hd1, hs1⟩ := parentValue_shaped hv hactual
    obtain ⟨d2, hd2, hs2⟩ := parentValue_shaped hv hreference
    obtain ⟨_, rfl⟩ := floatOf_shaped hleft hs1
    obtain ⟨_, rfl⟩ := floatOf_shaped hright hs2
    exact ⟨.scalar 1, by simp [measuredDimensions, hd1, hd2], trivial⟩
  | loopTransfer probeId =>
    rw [hbody] at h
    cases h
  | unityFrequency inputId =>
    rw [hbody] at h
    cases h
  | phaseMargin inputId unityFrequencyId =>
    rw [hbody] at h
    cases h

variable (axis) in
theorem evaluateMeasurements_shaped {measurements : List Measurement} {values : PointValues F}
    (hprobe : ∀ m ∈ measurements, ∀ probeId ∈ m.body.probeId?, ∃ d, probe probeId = some d)
    (h : evaluateMeasurements measurements waveform plan corner probes baseLineage = .ok values) :
    ValuesShaped values (measurements.foldl (recordMeasured probe axis) .empty) := by
  unfold evaluateMeasurements at h
  have hrun := Except.foldlM_spec (fun done values => (∀ m ∈ done, ∀ probeId ∈ m.body.probeId?,
      ∃ d, probe probeId = some d) → ValuesShaped values
        (done.foldl (recordMeasured probe axis) .empty)) ?_ ?_ h
  · exact hrun hprobe
  · intro done measurement values next hinv hstep hdone
    have hv := hinv fun m hm => hdone m (List.mem_append_left _ hm)
    obtain ⟨item, hitem, hstore⟩ := Except.bind_eq_ok.mp hstep
    obtain ⟨dims, hdims, hs⟩ := measure_shaped axis hv (hdone measurement (by simp)) hitem
    unfold storeMeasured at hstore
    split_ifs at hstore
    obtain rfl := Except.ok.inj hstore
    intro id found hget
    rw [List.foldl_append, List.foldl_cons, List.foldl_nil, recordMeasured, hdims]
    simp only [InsertionDict.get?_set] at hget ⊢
    by_cases hid : id = measurement.id
    · rw [if_pos hid] at hget ⊢
      obtain rfl := Option.some.inj hget
      exact ⟨dims, rfl, hs⟩
    · rw [if_neg hid] at hget ⊢
      exact hv id found hget
  · intro _ id item hget
    rw [InsertionDict.get?_empty] at hget
    cases hget

theorem bindingComponent_shaped {item : ConditionValue F} {component : BindingComponent}
    {number : F} {d : PayloadDimensions} (hs : Shaped d item.value)
    (h : bindingComponent item component = .ok number) :
    ∃ dimension, d.component component = some dimension := by
  obtain ⟨selected, hselected, _⟩ := Except.bind_eq_ok.mp h
  obtain ⟨value, conditionIds⟩ := item
  cases component <;> cases value <;> cases hselected <;> cases d <;>
    first | exact hs.elim | exact ⟨_, rfl⟩

end Shapes

end OpenADA.Runner

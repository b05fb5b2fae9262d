import OpenADA.Library.ExceptFold
import OpenADA.Runner.Outputs

/-! What the emission loop leaves for each observable: its source alone decides whether it is
emitted, with which value and over which conditions. -/
namespace OpenADA.Runner

open OpenADA.Plan OpenADA.Compiler

variable {F : Type}

def linkedVerdict (verdicts : RuleVerdicts) (source : RuleSource) : Option (Observed F × IdSet) :=
  (publishedVerdict verdicts source).bind fun text =>
    if linkedConditions verdicts source = ∅ then none
    else some (.verdict text, linkedConditions verdicts source)

def observed? (ctx : OutputContext F) (verdicts : RuleVerdicts) (source : ObservableSource) :
    Option (Observed F × IdSet) :=
  match source with
  | .measurement stageId pointId measurementId =>
    ((valuesAt ctx.values (stageId, pointId)).get? measurementId).map fun item =>
      (.measured item.value, item.conditionIds)
  | .validity stageId pointId ruleId => linkedVerdict verdicts (.point stageId pointId ruleId)
  | .stageValidity stageId ruleId => linkedVerdict verdicts (.stage stageId ruleId)
  | .reduction .. => none

def Emission.Fresh (emission : Emission F) (name : Id) : Prop :=
  emission.observables.get? name = none ∧ emission.lineage.get? name = none

theorem emitObservable_get?_of_ne (ctx : OutputContext F) (verdicts : RuleVerdicts)
    (emission : Emission F) (observable : Observable) {name : Id} (h : name ≠ observable.id) :
    (emitObservable ctx verdicts emission observable).observables.get? name =
        emission.observables.get? name ∧
      (emitObservable ctx verdicts emission observable).lineage.get? name =
        emission.lineage.get? name := by
  have hverdict : ∀ label text linked,
      (emitVerdict emission label observable.id text linked).observables.get? name =
          emission.observables.get? name ∧
        (emitVerdict emission label observable.id text linked).lineage.get? name =
          emission.lineage.get? name := by
    intro label text linked
    cases text with
    | none => exact ⟨rfl, rfl⟩
    | some text =>
      by_cases hlinked : linked = ∅
      · simp [emitVerdict, hlinked, Emission.refuse, h]
      · simp [emitVerdict, hlinked, h]
  unfold emitObservable
  cases observable.source with
  | measurement stageId pointId measurementId =>
    simp only [emitMeasurement]
    cases (valuesAt ctx.values (stageId, pointId)).get? measurementId with
    | none => exact ⟨rfl, rfl⟩
    | some item => simp [h]
  | validity stageId pointId ruleId => exact hverdict _ _ _
  | stageValidity stageId ruleId =>
    simp only
    cases publishedVerdict verdicts (.stage stageId ruleId) with
    | none => exact ⟨rfl, rfl⟩
    | some text => exact hverdict _ _ _
  | reduction stageId reductionId component => exact ⟨rfl, rfl⟩

theorem emitObservable_get?_self (ctx : OutputContext F) (verdicts : RuleVerdicts)
    (emission : Emission F) (observable : Observable) (h : emission.Fresh observable.id) :
    (emitObservable ctx verdicts emission observable).observables.get? observable.id =
        (observed? ctx verdicts observable.source).map Prod.fst ∧
      (emitObservable ctx verdicts emission observable).lineage.get? observable.id =
        (observed? ctx verdicts observable.source).map Prod.snd := by
  have hverdict : ∀ label source,
      (emitVerdict emission label observable.id (publishedVerdict verdicts source)
          (linkedConditions verdicts source)).observables.get? observable.id =
          (linkedVerdict (F := F) verdicts source).map Prod.fst ∧
        (emitVerdict emission label observable.id (publishedVerdict verdicts source)
          (linkedConditions verdicts source)).lineage.get? observable.id =
          (linkedVerdict (F := F) verdicts source).map Prod.snd := by
    intro label source
    cases hp : publishedVerdict verdicts source with
    | none => simp [emitVerdict, linkedVerdict, hp, h.1, h.2]
    | some text =>
      by_cases hlinked : linkedConditions verdicts source = ∅
      · simp [emitVerdict, linkedVerdict, hp, hlinked, Emission.refuse, h.2]
      · simp [emitVerdict, linkedVerdict, hp, hlinked]
  unfold emitObservable observed?
  cases observable.source with
  | measurement stageId pointId measurementId =>
    simp only [emitMeasurement]
    cases (valuesAt ctx.values (stageId, pointId)).get? measurementId with
    | none => simp [Emission.refuse, h.1, h.2]
    | some item => simp
  | validity stageId pointId ruleId => exact hverdict _ _
  | stageValidity stageId ruleId =>
    simp only
    have hs := hverdict "stage-validity" (.stage stageId ruleId)
    cases hp : publishedVerdict verdicts (.stage stageId ruleId) with
    | none => simp [unsupportedReduction, Emission.refuse, linkedVerdict, hp, h.1, h.2]
    | some text => rwa [hp] at hs
  | reduction stageId reductionId component =>
    simp [unsupportedReduction, Emission.refuse, h.1, h.2]

def Emission.Yields (emission : Emission F) (name : Id) (result : Option (Observed F × IdSet)) :
    Prop :=
  emission.observables.get? name = result.map Prod.fst ∧
    emission.lineage.get? name = result.map Prod.snd

theorem emit_foldl_yields (ctx : OutputContext F) (verdicts : RuleVerdicts) (name : Id)
    {observables : List Observable} (hn : (observables.map Observable.id).Nodup)
    (emission : Emission F) (hfresh : name ∈ observables.map Observable.id →
      emission.Fresh name) :
    (∀ observable ∈ observables, observable.id = name →
      (observables.foldl (emitObservable ctx verdicts) emission).Yields name
        (observed? ctx verdicts observable.source)) ∧
    (name ∉ observables.map Observable.id →
      (observables.foldl (emitObservable ctx verdicts) emission).observables.get? name =
          emission.observables.get? name ∧
        (observables.foldl (emitObservable ctx verdicts) emission).lineage.get? name =
          emission.lineage.get? name) := by
  induction observables generalizing emission with
  | nil => simp
  | cons first rest ih =>
    rw [List.map_cons, List.nodup_cons] at hn
    simp only [List.map_cons, List.mem_cons] at hfresh
    by_cases hname : name = first.id
    · subst hname
      have hself := emitObservable_get?_self ctx verdicts emission first (hfresh (.inl rfl))
      have hrest := (ih hn.2 (emitObservable ctx verdicts emission first)
        (fun hmem => absurd hmem hn.1)).2 hn.1
      constructor
      · intro observable hmem hid
        rcases List.mem_cons.mp hmem with rfl | hmem
        · exact ⟨hrest.1.trans hself.1, hrest.2.trans hself.2⟩
        · exact absurd (hid ▸ List.mem_map_of_mem hmem) hn.1
      · intro hnot
        exact absurd (List.mem_cons_self) hnot
    · have hother := emitObservable_get?_of_ne ctx verdicts emission first hname
      have hnext := ih hn.2 (emitObservable ctx verdicts emission first) (fun hmem => by
        have hf := hfresh (.inr hmem)
        exact ⟨hother.1.trans hf.1, hother.2.trans hf.2⟩)
      constructor
      · intro observable hmem hid
        rcases List.mem_cons.mp hmem with rfl | hmem
        · exact absurd hid.symm hname
        · exact hnext.1 observable hmem hid
      · intro hnot
        have hrest := hnext.2 (fun hmem => hnot (List.mem_cons_of_mem _ hmem))
        exact ⟨hrest.1.trans hother.1, hrest.2.trans hother.2⟩

section

variable [PyFloat F]

theorem evaluatePlanOutputs_yields (ctx : OutputContext F)
    (hn : (ctx.plan.observables.map Observable.id).Nodup) {observable : Observable}
    (h : observable ∈ ctx.plan.observables) :
    (evaluatePlanOutputs ctx).2.Yields observable.id
      (observed? ctx (ruleScan ctx).verdicts observable.source) :=
  (emit_foldl_yields ctx _ observable.id hn _ (fun _ => ⟨rfl, rfl⟩)).1 observable h rfl

theorem evaluatePlanOutputs_undeclared (ctx : OutputContext F)
    (hn : (ctx.plan.observables.map Observable.id).Nodup) {name : Id}
    (h : name ∉ ctx.plan.observables.map Observable.id) :
    (evaluatePlanOutputs ctx).2.Fresh name :=
  (emit_foldl_yields ctx _ name hn _ (fun hmem => absurd hmem h)).2 h

end

theorem closeLineage_get? (known : List String) (emission : Emission F) (entry : Id × IdSet)
    (name : Id) :
    (closeLineage known emission entry).observables.get? name =
        (if name = entry.1 ∧ ¬ Closed known entry.2 then none
          else emission.observables.get? name) ∧
      (closeLineage known emission entry).lineage.get? name =
        (if name = entry.1 ∧ ¬ Closed known entry.2 then none
          else emission.lineage.get? name) := by
  unfold closeLineage
  by_cases hclosed : Closed known entry.2
  · rw [if_pos hclosed]
    simp [hclosed]
  · rw [if_neg hclosed]
    simp [Emission.refuse, hclosed]

theorem closeLineage_foldl_get? (known : List String) (name : Id) (entries : List (Id × IdSet))
    (emission : Emission F) :
    (entries.foldl (closeLineage known) emission).observables.get? name =
        (if ∃ entry ∈ entries, name = entry.1 ∧ ¬ Closed known entry.2 then none
          else emission.observables.get? name) ∧
      (entries.foldl (closeLineage known) emission).lineage.get? name =
        (if ∃ entry ∈ entries, name = entry.1 ∧ ¬ Closed known entry.2 then none
          else emission.lineage.get? name) := by
  induction entries generalizing emission with
  | nil => simp
  | cons entry rest ih =>
    have hhere := closeLineage_get? known emission entry name
    have hrest := ih (closeLineage known emission entry)
    rw [List.foldl_cons, hrest.1, hrest.2, hhere.1, hhere.2]
    simp only [List.mem_cons, exists_eq_or_imp]
    by_cases h1 : name = entry.1 ∧ ¬ Closed known entry.2 <;>
      by_cases h2 : ∃ e ∈ rest, name = e.1 ∧ ¬ Closed known e.2 <;> simp [h1, h2]

/-- The closing pass keeps an observable exactly when its lineage is closed. -/
theorem closedEmission_yields (known : List String) {emission : Emission F} {name : Id}
    {result : Option (Observed F × IdSet)} (h : emission.Yields name result) :
    (closedEmission known emission).Yields name
      (result.filter fun found => decide (Closed known found.2)) := by
  have hclose := closeLineage_foldl_get? known name emission.lineage.entries emission
  cases result with
  | none =>
    have hnone : ¬ ∃ entry ∈ emission.lineage.entries, name = entry.1 ∧ ¬ Closed known entry.2 := by
      rintro ⟨entry, hentry, rfl, _⟩
      have hkey := InsertionDict.get?_eq_none_iff.mp h.2
      exact hkey (List.mem_map_of_mem hentry)
    rw [if_neg hnone, if_neg hnone] at hclose
    exact ⟨hclose.1.trans h.1, hclose.2.trans h.2⟩
  | some found =>
    have hmem : (name, found.2) ∈ emission.lineage.entries :=
      InsertionDict.get?_eq_some_iff.mp h.2
    have hiff : (∃ entry ∈ emission.lineage.entries, name = entry.1 ∧ ¬ Closed known entry.2) ↔
        ¬ Closed known found.2 := by
      constructor
      · rintro ⟨entry, hentry, rfl, hopen⟩
        have hget : emission.lineage.get? entry.1 = some entry.2 :=
          InsertionDict.get?_eq_some_iff.mpr hentry
        rw [h.2] at hget
        rwa [Option.some.inj hget]
      · exact fun hopen => ⟨_, hmem, rfl, hopen⟩
    by_cases hclosed : Closed known found.2
    · rw [if_neg (by simp [hiff, hclosed]), if_neg (by simp [hiff, hclosed])] at hclose
      simp only [Option.filter_some, decide_eq_true_eq, hclosed, if_true]
      exact ⟨hclose.1.trans h.1, hclose.2.trans h.2⟩
    · rw [if_pos (hiff.mpr hclosed), if_pos (hiff.mpr hclosed)] at hclose
      simp only [Option.filter_some, decide_eq_true_eq, hclosed, if_false]
      exact hclose

end OpenADA.Runner

import OpenADA.Runner.Emission
import OpenADA.Runner.Identity

/-! The verdicts of the validity rules: which rules have one, what it says, and that publishing
it under a name loses nothing. -/
namespace OpenADA.Runner

open OpenADA.Plan OpenADA.Compiler

def RuleSource.Plain : RuleSource → Prop
  | .point stageId pointId ruleId => Dotless stageId ∧ Dotless pointId ∧ Dotless ruleId
  | .stage stageId ruleId => Dotless stageId ∧ Dotless ruleId

theorem RuleSource.Plain.ruleId {source : RuleSource} (h : source.Plain) :
    Dotless source.ruleId := by
  cases source with
  | point stageId pointId ruleId => exact h.2.2
  | stage stageId ruleId => exact h.2

theorem RuleSource.qualified_dotted (source : RuleSource) : '.' ∈ source.qualified.toList := by
  have hdot : ".".toList = ['.'] := rfl
  cases source with
  | point stageId pointId ruleId => simp [RuleSource.qualified, hdot]
  | stage stageId ruleId => simp [RuleSource.qualified, hdot]

theorem RuleSource.qualified_inj {a b : RuleSource} (ha : a.Plain) (hb : b.Plain)
    (h : a.qualified = b.qualified) : a = b := by
  have hdot : ".".toList = ['.'] := rfl
  have hlist := congrArg String.toList h
  cases a with
  | point s p r =>
    cases b with
    | point s' p' r' =>
      have hjoin : s.toList ++ '.' :: (p.toList ++ '.' :: r.toList) =
          s'.toList ++ '.' :: (p'.toList ++ '.' :: r'.toList) := by
        simpa [RuleSource.qualified, hdot] using hlist
      obtain ⟨h1, h2, h3⟩ := Separated.join_inj ha.1 hb.1 ha.2.1 hb.2.1
        (Separated.tail_cons _ _) (Separated.tail_cons _ _) hjoin
      rw [String.toList_inj.mp h1, String.toList_inj.mp h2,
        String.toList_inj.mp (List.cons.inj h3).2]
    | stage s' r' =>
      have hjoin : s.toList ++ '.' :: (p.toList ++ '.' :: r.toList) =
          s'.toList ++ '.' :: r'.toList := by
        simpa [RuleSource.qualified, hdot] using hlist
      have hrest := (Separated.append_inj ha.1 hb.1 (Separated.tail_cons _ _)
        (Separated.tail_cons _ _) hjoin).2
      have hmem : '.' ∈ r'.toList := by
        rw [← (List.cons.inj hrest).2]
        exact List.mem_append_right _ List.mem_cons_self
      exact absurd hmem hb.2
  | stage s r =>
    cases b with
    | point s' p' r' =>
      have hjoin : s.toList ++ '.' :: r.toList =
          s'.toList ++ '.' :: (p'.toList ++ '.' :: r'.toList) := by
        simpa [RuleSource.qualified, hdot] using hlist
      have hrest := (Separated.append_inj ha.1 hb.1 (Separated.tail_cons _ _)
        (Separated.tail_cons _ _) hjoin).2
      have hmem : '.' ∈ r.toList := by
        rw [(List.cons.inj hrest).2]
        exact List.mem_append_right _ List.mem_cons_self
      exact absurd hmem ha.2
    | stage s' r' =>
      have hjoin : s.toList ++ '.' :: r.toList = s'.toList ++ '.' :: r'.toList := by
        simpa [RuleSource.qualified, hdot] using hlist
      obtain ⟨h1, h2⟩ := Separated.append_inj ha.1 hb.1 (Separated.tail_cons _ _)
        (Separated.tail_cons _ _) hjoin
      rw [String.toList_inj.mp h1, String.toList_inj.mp (List.cons.inj h2).2]

theorem verdictName_inj {verdicts : RuleVerdicts} {a b : RuleSource} (ha : a.Plain) (hb : b.Plain)
    (hma : a ∈ verdicts.keys) (hmb : b ∈ verdicts.keys)
    (h : verdictName verdicts a = verdictName verdicts b) : a = b := by
  unfold verdictName at h
  split_ifs at h with h1 h2 h2
  · -- Both names are bare rule identifiers, each of one rule only.
    obtain ⟨found, hfound⟩ := List.length_eq_one_iff.mp h1
    have hmem : ∀ c ∈ verdicts.keys, c.ruleId = a.ruleId → c = found := by
      intro c hc hid
      have hfilter : c ∈ verdicts.keys.filter fun other => decide (other.ruleId = a.ruleId) :=
        List.mem_filter.mpr ⟨hc, decide_eq_true hid⟩
      rw [hfound] at hfilter
      exact List.mem_singleton.mp hfilter
    rw [hmem a hma rfl, hmem b hmb h.symm]
  · exact absurd (h ▸ RuleSource.qualified_dotted b) ha.ruleId
  · exact absurd (h.symm ▸ RuleSource.qualified_dotted a) hb.ruleId
  · exact RuleSource.qualified_inj ha hb h

theorem publishedVerdict_eq {verdicts : RuleVerdicts} (hplain : ∀ s ∈ verdicts.keys, s.Plain)
    (source : RuleSource) :
    publishedVerdict verdicts source = (verdicts.get? source).map RuleVerdict.verdict := by
  unfold publishedVerdict
  by_cases hmem : source ∈ verdicts.keys
  · obtain ⟨verdict, hget⟩ := InsertionDict.mem_keys_iff.mp hmem
    rw [if_pos hmem, hget]
    unfold publishedVerdicts
    refine (InsertionDict.get?_ofList ?_).mpr
      (List.mem_map.mpr ⟨(source, verdict), InsertionDict.get?_eq_some_iff.mp hget, rfl⟩)
    rw [List.map_map]
    have hinj : ∀ a ∈ verdicts.keys, ∀ b ∈ verdicts.keys,
        verdictName verdicts a = verdictName verdicts b → a = b :=
      fun a ha b hb h => verdictName_inj (hplain a ha) (hplain b hb) ha hb h
    have hnames : (verdicts.keys.map (verdictName verdicts)).Nodup :=
      List.Nodup.map_on hinj verdicts.keys_nodup
    rw [InsertionDict.keys, List.map_map] at hnames
    exact hnames
  · rw [if_neg hmem, InsertionDict.get?_eq_none_iff.mpr hmem]
    rfl

section

variable {F : Type} [PyFloat F]

def pointRuleEntry (ctx : OutputContext F) (key : Id × Id) (rule : ValidityRule) :
    RuleSource × RuleVerdict :=
  (.point key.1 key.2 rule.id, ⟨(pointRuleVerdict ctx key rule).1,
    ruleLineage (valuesAt ctx.values key) (attemptsAt ctx.attempts key)⟩)

def stageRuleEntry (ctx : OutputContext F) (stageId : Id) (rule : StageValidityRule) :
    RuleSource × RuleVerdict :=
  (.stage stageId rule.id, ⟨unknownVerdict "stage reductions unsupported",
    stageLineage ctx stageId⟩)

def stageRuleEntries (ctx : OutputContext F) (stage : Stage) : List (RuleSource × RuleVerdict) :=
  ((selectedPoints stage ctx.corner).flatMap fun point =>
    point.validityRules.map (pointRuleEntry ctx (stage.id, point.id))) ++
  if stage.reductions ≠ [] ∧ stageAttempts ctx.attempts stage.id ≠ [] then
    stage.validityRules.map (stageRuleEntry ctx stage.id)
  else []

def ruleEntries (ctx : OutputContext F) : List (RuleSource × RuleVerdict) :=
  ctx.plan.stages.flatMap (stageRuleEntries ctx)

theorem pointRules_verdicts (ctx : OutputContext F) (key : Id × Id) (rules : List ValidityRule)
    (scan : RuleScan) : (rules.foldl (pointRuleStep ctx key) scan).verdicts =
      (rules.map (pointRuleEntry ctx key)).foldl (fun acc e => acc.set e.1 e.2)
        scan.verdicts := by
  induction rules generalizing scan with
  | nil => rfl
  | cons rule rest ih =>
    rw [List.foldl_cons, ih, List.map_cons, List.foldl_cons]
    rfl

omit [PyFloat F] in
theorem stageRuleSteps_verdicts (ctx : OutputContext F) (stageId : Id)
    (rules : List StageValidityRule) (scan : RuleScan) :
    (rules.foldl (stageRuleStep ctx stageId) scan).verdicts =
      (rules.map (stageRuleEntry ctx stageId)).foldl (fun acc e => acc.set e.1 e.2)
        scan.verdicts := by
  induction rules generalizing scan with
  | nil => rfl
  | cons rule rest ih =>
    rw [List.foldl_cons, ih, List.map_cons, List.foldl_cons]
    rfl

theorem points_verdicts (ctx : OutputContext F) (stageId : Id) (points : List ConditionPoint)
    (scan : RuleScan) : (points.foldl (pointRules ctx stageId) scan).verdicts =
      (points.flatMap fun point => point.validityRules.map
        (pointRuleEntry ctx (stageId, point.id))).foldl (fun acc e => acc.set e.1 e.2)
        scan.verdicts := by
  induction points generalizing scan with
  | nil => rfl
  | cons point rest ih =>
    rw [List.foldl_cons, ih, List.flatMap_cons, List.foldl_append, pointRules,
      pointRules_verdicts]

theorem stageRules_verdicts (ctx : OutputContext F) (scan : RuleScan) (stage : Stage) :
    (stageRules ctx scan stage).verdicts =
      (stageRuleEntries ctx stage).foldl (fun acc e => acc.set e.1 e.2) scan.verdicts := by
  unfold stageRules stageRuleEntries
  rw [List.foldl_append, ← points_verdicts]
  split_ifs
  · rw [stageRuleSteps_verdicts]
  · rfl

theorem ruleScan_verdicts (ctx : OutputContext F) :
    (ruleScan ctx).verdicts = InsertionDict.ofList (ruleEntries ctx) := by
  have hfold : ∀ (stages : List Stage) (scan : RuleScan),
      (stages.foldl (stageRules ctx) scan).verdicts =
        (stages.flatMap (stageRuleEntries ctx)).foldl (fun acc e => acc.set e.1 e.2)
          scan.verdicts := by
    intro stages
    induction stages with
    | nil => exact fun _ => rfl
    | cons stage rest ih =>
      intro scan
      rw [List.foldl_cons, ih, List.flatMap_cons, List.foldl_append, stageRules_verdicts]
  exact hfold ctx.plan.stages _

theorem mem_stageRuleEntries {ctx : OutputContext F} {stage : Stage}
    {entry : RuleSource × RuleVerdict} : entry ∈ stageRuleEntries ctx stage ↔
      (∃ point ∈ selectedPoints stage ctx.corner, ∃ rule ∈ point.validityRules,
        entry = pointRuleEntry ctx (stage.id, point.id) rule) ∨
      (stage.reductions ≠ [] ∧ stageAttempts ctx.attempts stage.id ≠ []) ∧
        ∃ rule ∈ stage.validityRules, entry = stageRuleEntry ctx stage.id rule := by
  unfold stageRuleEntries
  rw [List.mem_append, List.mem_flatMap]
  simp only [List.mem_map, eq_comm (a := entry)]
  by_cases hstage : stage.reductions ≠ [] ∧ stageAttempts ctx.attempts stage.id ≠ []
  · simp [hstage]
  · simp [hstage]

/-- A rule verdict belongs to a rule of a selected point, or to a stage rule. -/
theorem ruleScan_source {ctx : OutputContext F} {source : RuleSource} {verdict : RuleVerdict}
    (h : (ruleScan ctx).verdicts.get? source = some verdict) :
    ∃ stage ∈ ctx.plan.stages,
      (∃ point ∈ selectedPoints stage ctx.corner, ∃ rule ∈ point.validityRules,
        (source, verdict) = pointRuleEntry ctx (stage.id, point.id) rule) ∨
      (stage.reductions ≠ [] ∧ stageAttempts ctx.attempts stage.id ≠ []) ∧
        ∃ rule ∈ stage.validityRules, (source, verdict) = stageRuleEntry ctx stage.id rule := by
  rw [ruleScan_verdicts] at h
  obtain ⟨stage, hs, hentry⟩ := List.mem_flatMap.mp (InsertionDict.mem_of_get?_ofList h)
  exact ⟨stage, hs, mem_stageRuleEntries.mp hentry⟩

section

variable {plan : PreparedPlan F} {ctx : OutputContext F} (hplan : ctx.plan = plan.document)
include hplan

theorem ruleScan_plain {source : RuleSource} (h : source ∈ (ruleScan ctx).verdicts.keys) :
    source.Plain := by
  have hacc := accepted_iff.mp plan.accepted
  obtain ⟨verdict, hget⟩ := InsertionDict.mem_keys_iff.mp h
  obtain ⟨stage, hs, hrule⟩ := ruleScan_source hget
  rw [hplan] at hs
  have hstage := schema_stage hacc hs
  simp only [stageOk, Bool.and_eq_true] at hstage
  have hsid : Dotless stage.id := isId_dotless hstage.1.1.1.1.1.1.1.1.1.1.1
  rcases hrule with ⟨point, hp, rule, hr, heq⟩ | ⟨_, rule, hr, heq⟩
  · have hpoint := schema_point hacc hs (List.mem_of_mem_filter hp)
    simp only [pointOk, Bool.and_eq_true] at hpoint
    have hok := List.all_eq_true.mp hpoint.2 rule hr
    simp only [validityRuleOk, Bool.and_eq_true] at hok
    rw [(Prod.mk.inj heq).1]
    exact ⟨hsid, isId_dotless hpoint.1.1.1.1.1.1.1.1.1.1.1, isId_dotless hok.1⟩
  · have hok := List.all_eq_true.mp hstage.2 rule hr
    simp only [stageValidityRuleOk, Bool.and_eq_true] at hok
    rw [(Prod.mk.inj heq).1]
    exact ⟨hsid, isId_dotless hok.1⟩

theorem pointRuleEntry_unique {stage stage' : Stage} {point point' : ConditionPoint}
    {rule rule' : ValidityRule} (hs : stage ∈ ctx.plan.stages) (hs' : stage' ∈ ctx.plan.stages)
    (hp : point ∈ stage.points) (hp' : point' ∈ stage'.points) (hr : rule ∈ point.validityRules)
    (hr' : rule' ∈ point'.validityRules) (hsid : stage'.id = stage.id)
    (hpid : point'.id = point.id) (hrid : rule'.id = rule.id) :
    stage' = stage ∧ point' = point ∧ rule' = rule := by
  have hacc := accepted_iff.mp plan.accepted
  rw [hplan] at hs hs'
  obtain rfl := List.inj_on_of_nodup_map (stage_ids_nodup (validateStages_clean hacc.stages).1)
    hs' hs hsid
  obtain rfl := List.inj_on_of_nodup_map (point_ids_nodup hacc hs) hp' hp hpid
  obtain rfl := List.inj_on_of_nodup_map (rule_ids_nodup hacc hs hp) hr' hr hrid
  exact ⟨rfl, rfl, rfl⟩

theorem ruleScan_point {stage : Stage} {point : ConditionPoint} {rule : ValidityRule}
    (hs : stage ∈ ctx.plan.stages) (hp : point ∈ selectedPoints stage ctx.corner)
    (hr : rule ∈ point.validityRules) :
    (ruleScan ctx).verdicts.get? (.point stage.id point.id rule.id) =
      some (pointRuleEntry ctx (stage.id, point.id) rule).2 := by
  rw [ruleScan_verdicts]
  have hagree : ∀ entry ∈ ruleEntries ctx, entry.1 = .point stage.id point.id rule.id →
      entry.2 = (pointRuleEntry ctx (stage.id, point.id) rule).2 := by
    intro entry hentry hkey
    obtain ⟨stage', hs', hmem⟩ := List.mem_flatMap.mp hentry
    rcases mem_stageRuleEntries.mp hmem with ⟨point', hp', rule', hr', rfl⟩ | ⟨_, rule', _, rfl⟩
    · simp only [pointRuleEntry, RuleSource.point.injEq] at hkey
      obtain ⟨rfl, rfl, rfl⟩ := pointRuleEntry_unique hplan hs hs' (List.mem_of_mem_filter hp)
        (List.mem_of_mem_filter hp') hr hr' hkey.1 hkey.2.1 hkey.2.2
      rfl
    · cases hkey
  rw [InsertionDict.get?_ofList_of_agree hagree, if_pos]
  exact List.mem_map.mpr ⟨_, List.mem_flatMap.mpr ⟨stage, hs,
    mem_stageRuleEntries.mpr (.inl ⟨point, hp, rule, hr, rfl⟩)⟩, rfl⟩

/-- A point rule without a verdict belongs to a point the corner does not select. -/
theorem ruleScan_unselected {stage : Stage} {point : ConditionPoint} {rule : ValidityRule}
    (hs : stage ∈ ctx.plan.stages) (hp : point ∈ stage.points) (hr : rule ∈ point.validityRules)
    (hcorner : point.condition.corner ≠ ctx.corner) :
    (ruleScan ctx).verdicts.get? (.point stage.id point.id rule.id) = none := by
  by_contra hsome
  obtain ⟨verdict, hget⟩ := Option.ne_none_iff_exists'.mp hsome
  obtain ⟨stage', hs', hrule⟩ := ruleScan_source hget
  rcases hrule with ⟨point', hp', rule', hr', heq⟩ | ⟨_, rule', _, heq⟩
  · have hkey := (Prod.mk.inj heq).1
    simp only [RuleSource.point.injEq] at hkey
    obtain ⟨rfl, rfl, rfl⟩ := pointRuleEntry_unique hplan hs hs' hp (List.mem_of_mem_filter hp')
      hr hr' hkey.1.symm hkey.2.1.symm hkey.2.2.symm
    exact hcorner (of_decide_eq_true (List.mem_filter.mp hp').2)
  · cases (Prod.mk.inj heq).1

/-- A validity observable of a selected point is emitted with its rule's verdict, unless no
condition is linked to it. -/
theorem linkedVerdict_point {stage : Stage} {point : ConditionPoint} {rule : ValidityRule}
    (hs : stage ∈ ctx.plan.stages) (hp : point ∈ selectedPoints stage ctx.corner)
    (hr : rule ∈ point.validityRules) :
    linkedVerdict (F := F) (ruleScan ctx).verdicts (.point stage.id point.id rule.id) =
      let verdict := (pointRuleEntry ctx (stage.id, point.id) rule).2
      if verdict.lineage = ∅ then none else some (.verdict verdict.verdict, verdict.lineage) := by
  have hget := ruleScan_point hplan hs hp hr
  unfold linkedVerdict linkedConditions
  rw [publishedVerdict_eq (fun s hs => ruleScan_plain hplan hs), hget]
  rfl

end

end

end OpenADA.Runner

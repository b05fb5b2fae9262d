import OpenADA.Runner.Lineage
import OpenADA.Runner.Rules

/-! The verdicts in the envelope of a run: one for each rule that was visited, under a name of its
own. -/
namespace OpenADA.Runner

open OpenADA.Plan OpenADA.Compiler

section Distinct

/-- Lists whose items carry the key of their origin are disjoint where the keys differ. -/
theorem nodup_flatMap_of_key {α β κ : Type} {items : List α} {f : α → List β}
    (key : α → κ) (tag : β → κ) (hkeys : (items.map key).Nodup) (htag : ∀ a ∈ items, ∀ b ∈ f a, tag b = key a)
    (hparts : ∀ a ∈ items, (f a).Nodup) : (items.flatMap f).Nodup := by
  rw [List.nodup_flatMap]
  refine ⟨hparts, ?_⟩
  rw [List.nodup_iff_pairwise_ne, List.pairwise_map] at hkeys
  apply hkeys.imp_of_mem
  intro a a' ha ha' hne b hb hb'
  exact hne ((htag a ha b hb).symm.trans (htag a' ha' b hb'))

def RuleSource.stageId : RuleSource → Id
  | .point stageId _ _ => stageId
  | .stage stageId _ => stageId

def RuleSource.pointId : RuleSource → Option Id
  | .point _ pointId _ => some pointId
  | .stage _ _ => none

variable {F : Type} [PyFloat F]

theorem stage_rule_ids_nodup {plan : PlanDocument} {stage : Stage} (h : Accepted F plan)
    (hs : stage ∈ plan.stages) : (stage.validityRules.map StageValidityRule.id).Nodup := by
  obtain ⟨scan, position, hclean⟩ := stage_clean h hs
  simp only [stageStep, List.append_eq_nil_iff] at hclean
  refine scan_keys_nodup StageValidityRule.id InsertionDict.keys ?_ rfl hclean.2
  intro output i rule hstep
  by_cases hmem : rule.id ∈ output.keys
  · simp [stageValidityStep, hmem] at hstep
  · refine ⟨hmem, fun k => ?_⟩
    simp only [stageValidityStep, hmem, if_false]
    exact InsertionDict.mem_keys_set

theorem stageRuleEntries_nodup {ctx : OutputContext F} {stage : Stage} (h : Accepted F ctx.plan)
    (hs : stage ∈ ctx.plan.stages) : ((stageRuleEntries ctx stage).map Prod.fst).Nodup := by
  have hpoints : (((selectedPoints stage ctx.corner).flatMap fun point =>
      point.validityRules.map (pointRuleEntry ctx (stage.id, point.id))).map Prod.fst).Nodup := by
    rw [List.map_flatMap]
    apply nodup_flatMap_of_key (fun point => some point.id) RuleSource.pointId
    · have hids : ((selectedPoints stage ctx.corner).map ConditionPoint.id).Nodup :=
        (point_ids_nodup h hs).sublist (List.filter_sublist.map ConditionPoint.id)
      have hsome := hids.map (Option.some_injective _)
      rwa [List.map_map] at hsome
    · intro point _ source hsource
      rw [List.map_map] at hsource
      obtain ⟨rule, -, rfl⟩ := List.mem_map.mp hsource
      rfl
    · intro point hp
      have hids := rule_ids_nodup h hs (List.mem_of_mem_filter hp)
      rw [List.map_map]
      apply List.Nodup.of_map RuleSource.ruleId
      rw [List.map_map]
      exact hids
  unfold stageRuleEntries
  split
  · rw [List.map_append, List.nodup_append]
    refine ⟨hpoints, ?_, ?_⟩
    · rw [List.map_map]
      apply List.Nodup.of_map RuleSource.ruleId
      rw [List.map_map]
      exact stage_rule_ids_nodup h hs
    · -- a rule of a point has a point, a rule of the stage has none
      intro source hsource other hother heq
      rw [List.map_flatMap, List.mem_flatMap] at hsource
      obtain ⟨point, -, hmem⟩ := hsource
      rw [List.map_map] at hmem hother
      obtain ⟨rule, -, rfl⟩ := List.mem_map.mp hmem
      obtain ⟨stageRule, -, rfl⟩ := List.mem_map.mp hother
      cases heq
  · rw [List.append_nil]
    exact hpoints

theorem ruleEntries_nodup {ctx : OutputContext F} (h : Accepted F ctx.plan) :
    ((ruleEntries ctx).map Prod.fst).Nodup := by
  unfold ruleEntries
  rw [List.map_flatMap]
  apply nodup_flatMap_of_key Stage.id RuleSource.stageId
  · exact stage_ids_nodup (validateStages_clean h.stages).1
  · intro stage _ source hsource
    obtain ⟨entry, hentry, rfl⟩ := List.mem_map.mp hsource
    rcases mem_stageRuleEntries.mp hentry with ⟨point, -, rule, -, rfl⟩ | ⟨-, rule, -, rfl⟩
    · rfl
    · rfl
  · exact fun stage hs => stageRuleEntries_nodup h hs

theorem ruleScan_entries {ctx : OutputContext F} (h : Accepted F ctx.plan) :
    (ruleScan ctx).verdicts.entries = ruleEntries ctx := by
  rw [ruleScan_verdicts]
  exact InsertionDict.entries_ofList (ruleEntries_nodup h)

end Distinct

/-- Publishing verdicts whose identifiers carry no separators keeps all of them, each under a name
of its own. -/
theorem publishedVerdicts_entries {verdicts : RuleVerdicts} (hplain : ∀ s ∈ verdicts.keys, s.Plain) :
    (verdicts.keys.map (verdictName verdicts)).Nodup ∧
      (publishedVerdicts verdicts).entries =
        verdicts.entries.map fun entry => (verdictName verdicts entry.1, entry.2.verdict) := by
  have hnames : (verdicts.keys.map (verdictName verdicts)).Nodup :=
    verdicts.keys_nodup.map_on fun a ha b hb =>
      verdictName_inj (hplain a ha) (hplain b hb) ha hb
  refine ⟨hnames, InsertionDict.entries_ofList ?_⟩
  rw [InsertionDict.keys, List.map_map] at hnames
  rw [List.map_map]
  exact hnames

end OpenADA.Runner

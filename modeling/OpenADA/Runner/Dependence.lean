import OpenADA.Plan.Sources
import OpenADA.Runner.Completion

/-! Lineage is a dependency set. Two runs of a plan whose executors answer alike on the conditions
of a published lineage publish the same value: the two stage loops are followed side by side. -/
namespace OpenADA.Runner

open OpenADA.Plan OpenADA.Compiler

variable {F : Type} [PyFloat F]

section Bindings

variable {plan : PlanDocument}

def Binds (plan : PlanDocument) (item : ResolvedBindingValue F) (bound : BoundInput) : Prop :=
  ∃ binding source resolved,
    (InsertionDict.ofList (plan.bindings.map fun b => (b.id, b))).get? item.bindingId =
      some binding ∧
    PyFloat.toDecimal item.value = some source ∧ transformed binding source = .ok resolved ∧
    bound = ⟨item.bindingId, PyDecimal.token source, tokenValue resolved, item.unit,
      item.sourceReceiptSha256, binding.transform⟩

theorem Binds.unique {item : ResolvedBindingValue F} {bound bound' : BoundInput}
    (h : Binds plan item bound) (h' : Binds plan item bound') : bound = bound' := by
  obtain ⟨binding, source, resolved, hbinding, hsource, hresolved, rfl⟩ := h
  obtain ⟨binding', source', resolved', hbinding', hsource', hresolved', rfl⟩ := h'
  obtain rfl := Option.some.inj (hbinding.symm.trans hbinding')
  obtain rfl := Option.some.inj (hsource.symm.trans hsource')
  obtain rfl := Except.ok.inj (hresolved.symm.trans hresolved')
  rfl

theorem decimal_eq_ok {value : Option ℚ} {path : String} {exact : ℚ}
    (h : decimal value path = .ok exact) : value = some exact := by
  unfold decimal at h
  cases value with
  | none => cases h
  | some number =>
    dsimp only at h
    split_ifs at h
    · rw [Except.ok.inj h]
    · cases h

theorem resolveBindingValues_get? {values : List (ResolvedBindingValue F)}
    {output : InsertionDict Id BoundInput} (h : resolveBindingValues plan values = .ok output) :
    ∀ id bound, output.get? id = some bound →
      ∃ item ∈ values, item.bindingId = id ∧ Binds plan item bound := by
  unfold resolveBindingValues at h
  have hall := Except.foldlM_spec (fun done (output : InsertionDict Id BoundInput) =>
    ∀ id bound, output.get? id = some bound →
      ∃ entry ∈ done, entry.1.bindingId = id ∧ Binds plan entry.1 bound) ?_ ?_ h
  · intro id bound hget
    obtain ⟨entry, hentry, hid, hbinds⟩ := hall id bound hget
    exact ⟨entry.1, List.fst_mem_of_mem_zipIdx hentry, hid, hbinds⟩
  · intro done entry output next hinv hstep id bound hget
    unfold resolveBindingValue at hstep
    cases hbinding : (InsertionDict.ofList (plan.bindings.map fun b => (b.id, b))).get?
        entry.1.bindingId with
    | none =>
      rw [hbinding] at hstep
      cases hstep
    | some binding =>
      rw [hbinding] at hstep
      dsimp only at hstep
      split_ifs at hstep
      · cases hstep
      · cases hstep
      obtain ⟨source, hsource, hstep⟩ := Except.bind_eq_ok.mp hstep
      obtain ⟨resolved, hresolved, hstep⟩ := Except.bind_eq_ok.mp hstep
      unfold storeBound at hstep
      split_ifs at hstep
      · obtain rfl := Except.ok.inj hstep
        rw [InsertionDict.get?_set] at hget
        by_cases hid : id = entry.1.bindingId
        · rw [if_pos hid] at hget
          exact ⟨entry, by simp, hid.symm, binding, source, resolved, hbinding,
            decimal_eq_ok hsource, hresolved, (Option.some.inj hget).symm⟩
        · rw [if_neg hid] at hget
          obtain ⟨known, hknown, hrest⟩ := hinv id bound hget
          exact ⟨known, List.mem_append_left _ hknown, hrest⟩
      · cases hstep
  · intro id bound hget
    rw [InsertionDict.get?_empty] at hget
    cases hget

/-- An input of a stage is bound by a provided value of a binding that targets it. -/
theorem boundByTarget_provided {stageId inputId : Id} {values : InsertionDict Id BoundInput}
    (h : inputId ∈ (boundByTarget plan stageId values).keys) :
    ∃ binding ∈ plan.bindings, binding.target.stageId = stageId ∧
      binding.target.inputId = inputId ∧ ∃ bound, values.get? binding.id = some bound := by
  unfold boundByTarget at h
  revert h
  generalize plan.bindings = bindings
  induction bindings using List.reverseRecOn with
  | nil => exact fun h => absurd h List.not_mem_nil
  | append_singleton rest binding ih =>
    intro h
    rw [List.foldl_concat] at h
    by_cases hstage : binding.target.stageId = stageId
    · rw [if_pos hstage] at h
      cases hget : values.get? binding.id with
      | none =>
        rw [hget] at h
        exact (ih h).imp fun _ => And.imp_left (List.mem_append_left _)
      | some bound =>
        rw [hget] at h
        rcases InsertionDict.mem_keys_set.mp h with rfl | hmem
        · exact ⟨binding, by simp, hstage, rfl, bound, hget⟩
        · exact (ih hmem).imp fun _ => And.imp_left (List.mem_append_left _)
    · rw [if_neg hstage] at h
      exact (ih h).imp fun _ => And.imp_left (List.mem_append_left _)

theorem boundByTarget_congr {stageId : Id} {values values' : InsertionDict Id BoundInput}
    (h : ∀ binding ∈ plan.bindings, binding.target.stageId = stageId →
      values.get? binding.id = values'.get? binding.id) :
    boundByTarget plan stageId values = boundByTarget plan stageId values' := by
  unfold boundByTarget
  apply List.foldl_ext
  intro byTarget binding hbinding
  by_cases hstage : binding.target.stageId = stageId
  · rw [if_pos hstage, if_pos hstage, h binding hbinding hstage]
  · rw [if_neg hstage, if_neg hstage]

theorem stageInputValues_eq_ok {stage : Stage} {values : InsertionDict Id BoundInput}
    {inputs : BoundInputs} (h : stageInputValues plan stage values = .ok inputs) :
    inputs = boundByTarget plan stage.id values ∧ ∀ item ∈ stage.inputs, item.id ∈ inputs.keys := by
  unfold stageInputValues at h
  dsimp only at h
  cases hmissing : stage.inputs.find? fun item =>
      decide (item.id ∉ (boundByTarget plan stage.id values).keys) with
  | some item =>
    rw [hmissing] at h
    cases h
  | none =>
    rw [hmissing] at h
    obtain rfl := Except.ok.inj h
    refine ⟨rfl, fun item hitem => ?_⟩
    by_contra hnot
    exact List.find?_eq_none.mp hmissing item hitem (decide_eq_true hnot)

end Bindings

section Stages

variable {ctx : RunContext F} {state next : RunState F} {stages : List Id} {stage : Stage}

abbrev RunContext.withExecutor (ctx : RunContext F) (executor : ConditionExecutor) : RunContext F :=
  { ctx with executor := executor }

theorem runStage_attempts (h : runStage ctx state stage = .ok next) :
    ∃ more, next.attempts = state.attempts ++ more := by
  rcases runStage_eq_ok h with rfl | ⟨failure, rfl⟩ | ⟨compilation, -, hexecuted⟩
  · exact ⟨[], (List.append_nil _).symm⟩
  · exact ⟨_, rfl⟩
  · exact ⟨_, hexecuted.attempts⟩

/-- What one stage hands on: the receipts of bindings that leave it. -/
theorem runStage_receipts (h : runStage ctx state stage = .ok next) :
    ∃ more, next.bindingReceipts = state.bindingReceipts ++ more ∧
      next.bindingValues = state.bindingValues ++ more.map resolvedValue ∧
      next.upstreamLineage = more.foldl (extendLineage ctx.plan) state.upstreamLineage ∧
      ∀ receipt ∈ more, ∃ binding ∈ ctx.plan.bindings, binding.source.stageId = stage.id ∧
        resolveBinding ⟨ctx.host, ctx.plan, ctx.corner, next.conditionValues, next.attempts⟩
          binding = .ok receipt := by
  rcases runStage_eq_ok h with rfl | ⟨failure, rfl⟩ | ⟨compilation, -, hexecuted⟩
  · exact ⟨[], by simp⟩
  · exact ⟨[], by simp [skipStage]⟩
  · exact ⟨_, hexecuted.receipts, hexecuted.bindingValues, hexecuted.lineage,
      fun receipt hmem => mem_leavingReceipts.mp hmem⟩

theorem runStage_values (h : Traced stages state) (hstep : runStage ctx state stage = .ok next)
    {key : Id × Id} {found : PointValues F}
    (hget : next.conditionValues.get? key = some found) :
    (key.1 ∈ stages ∧ state.conditionValues.get? key = some found) ∨
      (key.1 = stage.id ∧ ∃ compilation, compileStage ctx state stage = .ok compilation ∧
        next.attempts = state.attempts ++
          compilation.conditions.map (attempted ctx.host ctx.plan ctx.executor) ∧
        evaluatedPoint ctx compilation.conditions (state.upstreamLineage.at stage.id) key =
          some found) := by
  rcases runStage_eq_ok hstep with rfl | ⟨failure, rfl⟩ | ⟨compilation, hcompile, hexecuted⟩
  · exact .inl ⟨h.points key found hget, hget⟩
  · exact .inl ⟨h.points key found hget, hget⟩
  · rcases h.values_of_executed hcompile hexecuted hget with ⟨hstage, hnew⟩ | hold
    · exact .inr ⟨hstage, compilation, hcompile, hexecuted.attempts, hnew⟩
    · exact .inl hold

structure HandedOn (ctx : RunContext F) (stages : List Id) (state : RunState F) : Prop where
  traced : Traced stages state
  values : state.bindingValues = state.bindingReceipts.map resolvedValue
  sources : ∀ receipt ∈ state.bindingReceipts, ∃ binding ∈ ctx.plan.bindings,
    binding.id = receipt.receipt.bindingId ∧ binding.source.stageId ∈ stages
  conditions : ∀ receipt ∈ state.bindingReceipts,
    ∀ attempt ∈ receipt.receipt.conditions, attempt ∈ state.attempts
  upstream : ∀ stageId id, id ∈ state.upstreamLineage.at stageId ↔
    ∃ receipt ∈ state.bindingReceipts, Feeds ctx.plan receipt stageId ∧
      id ∈ receiptConditions receipt.receipt

theorem runStage_handedOn (h : HandedOn ctx stages state) (hfresh : stage.id ∉ stages)
    (hstep : runStage ctx state stage = .ok next) : HandedOn ctx (stages ++ [stage.id]) next := by
  obtain ⟨more, hreceipts, hvalues, hlineage, hleaving⟩ := runStage_receipts hstep
  obtain ⟨attempts, hattempts⟩ := runStage_attempts hstep
  refine ⟨runStage_traced h.traced hfresh hstep, ?_, ?_, ?_, ?_⟩
  · rw [hvalues, hreceipts, h.values, List.map_append]
  · intro receipt hmem
    rw [hreceipts] at hmem
    rcases List.mem_append.mp hmem with hold | hnew
    · obtain ⟨binding, hbinding, hid, hsource⟩ := h.sources receipt hold
      exact ⟨binding, hbinding, hid, List.mem_append_left _ hsource⟩
    · obtain ⟨binding, hbinding, hsource, hresolved⟩ := hleaving receipt hnew
      obtain ⟨_, _, _, _, _, _, _, -, -, -, -, rfl⟩ := resolveBinding_eq_ok hresolved
      exact ⟨binding, hbinding, rfl, List.mem_append_right _ (by simp [hsource])⟩
  · intro receipt hmem attempt hattempt
    rw [hreceipts] at hmem
    rcases List.mem_append.mp hmem with hold | hnew
    · rw [hattempts]
      exact List.mem_append_left _ (h.conditions receipt hold attempt hattempt)
    · obtain ⟨binding, -, -, hresolved⟩ := hleaving receipt hnew
      obtain ⟨_, _, _, _, _, _, _, -, -, -, hconditions, rfl⟩ :=
        resolveBinding_eq_ok hresolved
      exact (contributingAttempts_eq_some hconditions).1 attempt hattempt
  · intro stageId id
    rw [hlineage, mem_extendLineages, h.upstream, hreceipts]
    simp only [List.mem_append, or_and_right, exists_or]

/-- What a compiled stage was compiled from: its inputs are all provided. -/
theorem compileStage_provided (haccepted : Accepted F ctx.plan) (hstage : stage ∈ ctx.plan.stages)
    {compilation : Compilation} (h : compileStage ctx state stage = .ok compilation) :
    ∃ sealedDut corner output conditions, ctx.captureDut stage.id = .ok sealedDut ∧
      selectCorner ctx.plan ctx.corner = .ok corner ∧
      resolveBindingValues ctx.plan state.bindingValues = .ok output ∧
      (∀ binding ∈ ctx.plan.bindings, binding.target.stageId = stage.id →
        ∃ bound, output.get? binding.id = some bound) ∧
      (selectedPoints stage ctx.corner).mapM (compilePoint ⟨ctx.host.toHost, ctx.plan, sealedDut,
        corner, stage, boundByTarget ctx.plan stage.id output⟩) = .ok conditions ∧
      compilation = ⟨sealedDut, conditions.flatten⟩ := by
  unfold compileStage prepareTestbenchPlanNgspice at h
  obtain ⟨sealedDut, hdut, h⟩ := Except.bind_eq_ok.mp h
  obtain ⟨corner, hcorner, h⟩ := Except.bind_eq_ok.mp h
  obtain ⟨output, houtput, h⟩ := Except.bind_eq_ok.mp h
  obtain ⟨-, -, h⟩ := Except.bind_eq_ok.mp h
  obtain ⟨inputs, hinputs, h⟩ := Except.bind_eq_ok.mp h
  obtain ⟨conditions, hconditions, h⟩ := Except.bind_eq_ok.mp h
  obtain ⟨-, -, h⟩ := Except.bind_eq_ok.mp h
  obtain ⟨hbound, hkeys⟩ := stageInputValues_eq_ok hinputs
  rw [hbound] at hconditions hkeys
  refine ⟨sealedDut, corner, output, conditions, hdut, hcorner, houtput, ?_, hconditions,
    (Except.ok.inj h).symm⟩
  intro binding hbinding htarget
  obtain ⟨declared, hdeclared, hid, hinput⟩ := binding_target_declared haccepted hbinding
  obtain rfl : declared = stage :=
    List.inj_on_of_nodup_map (stage_ids_nodup (validateStages_clean haccepted.stages).1) hdeclared
      hstage (hid.trans htarget)
  obtain ⟨item, hitem, hinputId⟩ := List.mem_map.mp hinput
  obtain ⟨other, hother, hstageId, hother', hbound⟩ :=
    boundByTarget_provided (hinputId ▸ hkeys item hitem)
  obtain rfl : other = binding :=
    List.inj_on_of_nodup_map (binding_targets_nodup haccepted) hother hbinding
      (Prod.ext (hstageId.trans htarget.symm) hother')
  exact hbound

/-- A binding into a compiled stage has a receipt that feeds the stage. -/
theorem HandedOn.receipt (H : HandedOn ctx stages state) (haccepted : Accepted F ctx.plan)
    {output : InsertionDict Id BoundInput}
    (houtput : resolveBindingValues ctx.plan state.bindingValues = .ok output) {binding : Binding}
    (hbinding : binding ∈ ctx.plan.bindings) {bound : BoundInput}
    (hbound : output.get? binding.id = some bound) :
    ∃ receipt ∈ state.bindingReceipts, receipt.receipt.bindingId = binding.id ∧
      Feeds ctx.plan receipt binding.target.stageId ∧
      Binds ctx.plan (resolvedValue receipt) bound := by
  obtain ⟨item, hitem, hid, hbinds⟩ := resolveBindingValues_get? houtput _ _ hbound
  rw [H.values] at hitem
  obtain ⟨receipt, hreceipt, rfl⟩ := List.mem_map.mp hitem
  refine ⟨receipt, hreceipt, hid, ⟨binding, ?_, rfl⟩, hbinds⟩
  have hn : ((ctx.plan.bindings.map fun b => (b.id, b)).map Prod.fst).Nodup := by
    rw [List.map_map]
    exact binding_ids_nodup haccepted
  exact (InsertionDict.get?_ofList hn).mpr
    (List.mem_map.mpr ⟨binding, hbinding, by rw [← hid]; rfl⟩)

end Stages

section Comparison

variable {ctx : RunContext F} {executor : ConditionExecutor} {ids : IdSet}
  {state next state' next' : RunState F} {stages : List Id} {stage : Stage}

/-- Two runs agree on what rests on a set of conditions in the first of them. -/
structure Agree (ids : IdSet) (state state' : RunState F) : Prop where
  points : ∀ key found found', state.conditionValues.get? key = some found →
    state'.conditionValues.get? key = some found' → ∀ name item, found.get? name = some item →
      item.conditionIds ⊆ ids → found' = found ∧
        ∀ attempt ∈ state.attempts, ∀ attempt' ∈ state'.attempts,
          attempt.conditionId = attempt'.conditionId →
            attempt.conditionId ∈ item.conditionIds → attempt = attempt'
  receipts : ∀ receipt ∈ state.bindingReceipts, ∀ receipt' ∈ state'.bindingReceipts,
    receipt.receipt.bindingId = receipt'.receipt.bindingId →
      receiptConditions receipt.receipt ⊆ ids → receipt' = receipt

/-- Where both runs compile a stage and agree on what is upstream of it, they compile the same
conditions and depend on the same attempts upstream. -/
theorem Agree.compiled (h : Agree ids state state') (haccepted : Accepted F ctx.plan)
    (hstage : stage ∈ ctx.plan.stages) (H : HandedOn ctx stages state)
    (H' : HandedOn (ctx.withExecutor executor) stages state')
    (hupstream : state.upstreamLineage.at stage.id ⊆ ids) {compilation compilation' : Compilation}
    (hcompile : compileStage ctx state stage = .ok compilation)
    (hcompile' : compileStage (ctx.withExecutor executor) state' stage =
      .ok compilation') :
    compilation' = compilation ∧
      state'.upstreamLineage.at stage.id = state.upstreamLineage.at stage.id ∧
      ∀ id ∈ state.upstreamLineage.at stage.id, ∃ attempt ∈ state.attempts,
        attempt ∈ state'.attempts ∧ attempt.conditionId = id := by
  obtain ⟨sealedDut, corner, output, conditions, hdut, hcorner, houtput, hprovided, hconditions,
    rfl⟩ := compileStage_provided haccepted hstage hcompile
  obtain ⟨sealedDut', corner', output', conditions', hdut', hcorner', houtput', hprovided',
    hconditions', rfl⟩ := compileStage_provided haccepted hstage hcompile'
  obtain rfl : sealedDut' = sealedDut := Except.ok.inj (hdut'.symm.trans hdut)
  obtain rfl : corner' = corner := Except.ok.inj (hcorner'.symm.trans hcorner)
  have hfed : ∀ receipt ∈ state.bindingReceipts, Feeds ctx.plan receipt stage.id →
      receiptConditions receipt.receipt ⊆ ids := fun receipt hreceipt hfeeds id hid =>
    hupstream ((H.upstream stage.id id).mpr ⟨receipt, hreceipt, hfeeds, hid⟩)
  -- every binding into the stage is resolved in both runs, by one receipt
  have hshared : ∀ binding ∈ ctx.plan.bindings, binding.target.stageId = stage.id →
      output.get? binding.id = output'.get? binding.id ∧
        ∃ receipt ∈ state.bindingReceipts, receipt ∈ state'.bindingReceipts ∧
          receipt.receipt.bindingId = binding.id ∧ Feeds ctx.plan receipt stage.id := by
    intro binding hbinding htarget
    obtain ⟨bound, hbound⟩ := hprovided binding hbinding htarget
    obtain ⟨bound', hbound'⟩ := hprovided' binding hbinding htarget
    obtain ⟨receipt, hreceipt, hid, hfeeds, hbinds⟩ :=
      H.receipt haccepted houtput hbinding hbound
    obtain ⟨receipt', hreceipt', hid', -, hbinds'⟩ :=
      H'.receipt haccepted houtput' hbinding hbound'
    rw [htarget] at hfeeds
    obtain rfl := h.receipts receipt hreceipt receipt' hreceipt' (hid.trans hid'.symm)
      (hfed receipt hreceipt hfeeds)
    refine ⟨?_, receipt', hreceipt, hreceipt', hid, hfeeds⟩
    rw [hbound, hbound', hbinds.unique hbinds']
  have hfeeding : ∀ receipt : SealedReceipt F, Feeds ctx.plan receipt stage.id →
      ∃ shared ∈ state.bindingReceipts, shared ∈ state'.bindingReceipts ∧
        shared.receipt.bindingId = receipt.receipt.bindingId ∧
          Feeds ctx.plan shared stage.id := by
    rintro receipt ⟨binding, hget, htarget⟩
    obtain ⟨declared, hdeclared, heq⟩ := List.mem_map.mp (InsertionDict.mem_of_get?_ofList hget)
    obtain ⟨hid, rfl⟩ := Prod.mk.inj heq
    obtain ⟨-, shared, hshare, hshare', hsame, hfeeds⟩ := hshared declared hdeclared htarget
    exact ⟨shared, hshare, hshare', hsame.trans hid, hfeeds⟩
  have hcommon : ∀ receipt ∈ state.bindingReceipts, Feeds ctx.plan receipt stage.id →
      receipt ∈ state'.bindingReceipts := by
    intro receipt hreceipt hfeeds
    obtain ⟨shared, -, hshare', hid, -⟩ := hfeeding receipt hfeeds
    exact h.receipts receipt hreceipt shared hshare' hid.symm (hfed receipt hreceipt hfeeds) ▸
      hshare'
  refine ⟨?_, ?_, ?_⟩
  · rw [boundByTarget_congr fun binding hbinding htarget =>
      (hshared binding hbinding htarget).1] at hconditions
    rw [Except.ok.inj (hconditions'.symm.trans hconditions)]
  · ext id
    rw [H.upstream, H'.upstream]
    constructor
    · rintro ⟨receipt', hreceipt', hfeeds', hid⟩
      obtain ⟨shared, hshare, -, hsame, hfeeds⟩ := hfeeding receipt' hfeeds'
      obtain rfl := h.receipts shared hshare receipt' hreceipt' hsame (hfed shared hshare hfeeds)
      exact ⟨receipt', hshare, hfeeds, hid⟩
    · rintro ⟨receipt, hreceipt, hfeeds, hid⟩
      exact ⟨receipt, hcommon receipt hreceipt hfeeds, hfeeds, hid⟩
  · intro id hid
    obtain ⟨receipt, hreceipt, hfeeds, hcondition⟩ := (H.upstream stage.id id).mp hid
    obtain ⟨attempt, hattempt, rfl⟩ := List.mem_map.mp (List.mem_toFinset.mp hcondition)
    exact ⟨attempt, H.conditions receipt hreceipt attempt hattempt,
      H'.conditions receipt (hcommon receipt hreceipt hfeeds) attempt hattempt, rfl⟩

omit [PyFloat F] in
theorem attemptsAt_map (conditions : List CompiledCondition)
    (attempt : CompiledCondition → ConditionAttempt) (key : Id × Id)
    (h : ∀ condition, (attempt condition).key = conditionKey condition) :
    attemptsAt (conditions.map attempt) key =
      (conditions.filter fun condition => decide (conditionKey condition = key)).map attempt := by
  unfold attemptsAt
  rw [List.filter_map]
  congr 1
  apply List.filter_congr
  intro condition _
  simp only [Function.comp_apply, h]

/-- The values of a point depend on what the executor answers at its own conditions. -/
theorem evaluatedPoint_congr {conditions : List CompiledCondition} {upstream : IdSet}
    {key : Id × Id} (h : ∀ condition ∈ conditions, conditionKey condition = key →
      ctx.executor condition = executor condition) :
    evaluatedPoint (ctx.withExecutor executor) conditions upstream key =
      evaluatedPoint ctx conditions upstream key := by
  have hrun : ∀ condition ∈ conditions.filter fun condition =>
      decide (conditionKey condition = key), runCondition ctx.host ctx.plan executor condition =
        runCondition ctx.host ctx.plan ctx.executor condition := by
    intro condition hmem
    obtain ⟨hcondition, hkey⟩ := List.mem_filter.mp hmem
    unfold runCondition
    rw [h condition hcondition (of_decide_eq_true hkey)]
  have hentries : completedEntries ctx.host ctx.plan executor conditions key =
      completedEntries ctx.host ctx.plan ctx.executor conditions key := by
    unfold completedEntries
    apply List.filterMap_congr
    intro condition hmem
    rw [hrun condition hmem]
  have hattempts : attemptsAt (conditions.map (attempted ctx.host ctx.plan executor)) key =
      attemptsAt (conditions.map (attempted ctx.host ctx.plan ctx.executor)) key := by
    rw [attemptsAt_map _ _ _ fun _ => rfl, attemptsAt_map _ _ _ fun _ => rfl]
    apply List.map_congr_left
    intro condition hmem
    rw [attempted, hrun condition hmem, attempted]
  unfold evaluatedPoint pointValues? pointComplete
  dsimp only
  rw [hentries, hattempts]

theorem contributingAttempts_agree {attempts attempts' found found' : List ConditionAttempt}
    {conditionIds : IdSet} (h : contributingAttempts attempts conditionIds = some found)
    (h' : contributingAttempts attempts' conditionIds = some found')
    (hagree : ∀ attempt ∈ attempts, ∀ attempt' ∈ attempts',
      attempt.conditionId = attempt'.conditionId → attempt.conditionId ∈ conditionIds →
        attempt = attempt') : found' = found := by
  obtain ⟨hmem, hids⟩ := contributingAttempts_eq_some h
  obtain ⟨hmem', hids'⟩ := contributingAttempts_eq_some h'
  have hlisted : ∀ attempt ∈ found, attempt.conditionId ∈ conditionIds := by
    intro attempt hattempt
    rw [← Finset.mem_sortedList, ← hids]
    exact List.mem_map_of_mem hattempt
  have hsame := hids'.trans hids.symm
  clear h h' hids hids'
  induction found generalizing found' with
  | nil => exact List.map_eq_nil_iff.mp hsame
  | cons attempt rest ih =>
    obtain ⟨attempt', rest', rfl, hid, hrest⟩ := List.map_eq_cons_iff.mp hsame
    rw [hagree attempt (hmem attempt List.mem_cons_self) attempt' (hmem' attempt'
      List.mem_cons_self) hid.symm (hlisted attempt List.mem_cons_self)]
    rw [ih (fun other hother => hmem other (List.mem_cons_of_mem _ hother))
      (fun other hother => hmem' other (List.mem_cons_of_mem _ hother))
      (fun other hother => hlisted other (List.mem_cons_of_mem _ hother)) hrest]

/-- Two stored values of one point, after a stage both runs went through. -/
theorem Agree.points_step (h : Agree ids state state') (haccepted : Accepted F ctx.plan)
    (hstage : stage ∈ ctx.plan.stages) (hfresh : stage.id ∉ stages) (H : HandedOn ctx stages state)
    (H' : HandedOn (ctx.withExecutor executor) stages state')
    (hsame : ∀ condition : CompiledCondition, condition.conditionId ∈ ids →
      ctx.executor condition = executor condition)
    (hstep : runStage ctx state stage = .ok next)
    (hstep' : runStage (ctx.withExecutor executor) state' stage = .ok next')
    (hn : (attemptIds next.attempts).Nodup) (hn' : (attemptIds next'.attempts).Nodup)
    {key : Id × Id} {found found' : PointValues F}
    (hget : next.conditionValues.get? key = some found)
    (hget' : next'.conditionValues.get? key = some found') {name : Id} {item : ConditionValue F}
    (hitem : found.get? name = some item) (hids : item.conditionIds ⊆ ids) :
    found' = found ∧ ∀ attempt ∈ next.attempts, ∀ attempt' ∈ next'.attempts,
      attempt.conditionId = attempt'.conditionId →
        attempt.conditionId ∈ item.conditionIds → attempt = attempt' := by
  -- an attempt of either run is the only one of its identifier
  have hunique : ∀ known ∈ next.attempts, ∀ attempt ∈ next.attempts,
      known.conditionId = attempt.conditionId → known = attempt := fun _ hknown _ hmem =>
    List.inj_on_of_nodup_map hn hknown hmem
  have hunique' : ∀ known ∈ next'.attempts, ∀ attempt ∈ next'.attempts,
      known.conditionId = attempt.conditionId → known = attempt := fun _ hknown _ hmem =>
    List.inj_on_of_nodup_map hn' hknown hmem
  obtain ⟨more, hmore⟩ := runStage_attempts hstep
  obtain ⟨more', hmore'⟩ := runStage_attempts hstep'
  rcases runStage_values H.traced hstep hget with
    ⟨hdone, hold⟩ | ⟨hkey, compilation, hcompile, hattempts, hnew⟩
  · rcases runStage_values H'.traced hstep' hget' with ⟨-, hold'⟩ | ⟨hkey', -⟩
    · obtain ⟨rfl, hagree⟩ := h.points key found found' hold hold' name item hitem hids
      refine ⟨rfl, ?_⟩
      intro attempt hmem attempt' hmem' hid hlisted
      obtain ⟨known, hknown, hknownId, -⟩ :=
        H.traced.values key found' hold name item hitem _ hlisted
      obtain ⟨known', hknown', hknownId', -⟩ :=
        H'.traced.values key found' hold' name item hitem _ hlisted
      rw [← hunique known (hmore ▸ List.mem_append_left _ hknown) attempt hmem hknownId,
        ← hunique' known' (hmore' ▸ List.mem_append_left _ hknown') attempt' hmem'
          (hknownId'.trans hid)]
      exact hagree known hknown known' hknown' (hknownId.trans hknownId'.symm)
        (hknownId ▸ hlisted)
    · exact absurd (hkey' ▸ hdone) hfresh
  · rcases runStage_values H'.traced hstep' hget' with
      ⟨hdone', -⟩ | ⟨-, compilation', hcompile', hattempts', hnew'⟩
    · exact absurd (hkey ▸ hdone') hfresh
    have hlisted := (evaluatedPoint_eq_some hnew).2.2 name item hitem
    obtain ⟨rfl, hupstream, hshared⟩ := h.compiled haccepted hstage H H'
      (fun id hid => hids ((hlisted id).mpr (.inr hid))) hcompile hcompile'
    have hexecutor : ∀ condition ∈ compilation'.conditions, conditionKey condition = key →
        ctx.executor condition = executor condition := fun condition hmem hkey =>
      hsame condition (hids ((hlisted _).mpr (.inl ⟨condition, hmem, hkey, rfl⟩)))
    rw [hupstream, evaluatedPoint_congr hexecutor, hnew] at hnew'
    refine ⟨(Option.some.inj hnew').symm, ?_⟩
    intro attempt hmem attempt' hmem' hid hin
    rcases (hlisted _).mp hin with ⟨condition, hcondition, hconditionKey, hconditionId⟩ | hin
    · have hattempt := hunique (attempted ctx.host ctx.plan ctx.executor condition)
        (hattempts ▸ List.mem_append_right _ (List.mem_map_of_mem hcondition)) attempt hmem
          hconditionId
      have hattempt' := hunique' (attempted ctx.host ctx.plan executor condition)
        (hattempts' ▸ List.mem_append_right _ (List.mem_map_of_mem hcondition)) attempt' hmem'
          (hconditionId.trans hid)
      rw [← hattempt, ← hattempt', attempted, attempted, runCondition, runCondition,
        hexecutor condition hcondition hconditionKey]
    · obtain ⟨known, hknown, hknown', hknownId⟩ := hshared _ hin
      rw [← hunique known (hmore ▸ List.mem_append_left _ hknown) attempt hmem hknownId,
        ← hunique' known (hmore' ▸ List.mem_append_left _ hknown') attempt' hmem'
          (hknownId.trans hid)]

/-- One stage keeps the agreement of two runs. -/
theorem Agree.step (h : Agree ids state state') (haccepted : Accepted F ctx.plan)
    (hstage : stage ∈ ctx.plan.stages) (hfresh : stage.id ∉ stages) (H : HandedOn ctx stages state)
    (H' : HandedOn (ctx.withExecutor executor) stages state')
    (hsame : ∀ condition : CompiledCondition, condition.conditionId ∈ ids →
      ctx.executor condition = executor condition)
    (hstep : runStage ctx state stage = .ok next)
    (hstep' : runStage (ctx.withExecutor executor) state' stage = .ok next')
    (hn : (attemptIds next.attempts).Nodup) (hn' : (attemptIds next'.attempts).Nodup) :
    Agree ids next next' := by
  refine ⟨fun key found found' hget hget' name item hitem hids => h.points_step haccepted hstage
    hfresh H H' hsame hstep hstep' hn hn' hget hget' hitem hids, ?_⟩
  obtain ⟨more, hreceipts, -, -, hleaving⟩ := runStage_receipts hstep
  obtain ⟨more', hreceipts', -, -, hleaving'⟩ := runStage_receipts hstep'
  -- the bindings that leave this stage were not handed on before
  have hnew : ∀ receipt : SealedReceipt F, ∀ known ∈ ctx.plan.bindings,
      ∀ binding ∈ ctx.plan.bindings, known.id = receipt.receipt.bindingId →
        known.source.stageId ∈ stages → binding.id = receipt.receipt.bindingId →
          binding.source.stageId ≠ stage.id := by
    intro receipt known hknown binding hbinding hid hdone hid' hleaves
    obtain rfl := List.inj_on_of_nodup_map (binding_ids_nodup haccepted) hknown hbinding
      (hid.trans hid'.symm)
    exact hfresh (hleaves ▸ hdone)
  intro receipt hreceipt receipt' hreceipt' hid hids
  rw [hreceipts] at hreceipt
  rw [hreceipts'] at hreceipt'
  rcases List.mem_append.mp hreceipt with hold | hlast <;>
    rcases List.mem_append.mp hreceipt' with hold' | hlast'
  · exact h.receipts receipt hold receipt' hold' hid hids
  · obtain ⟨known, hknown, hknownId, hdone⟩ := H.sources receipt hold
    obtain ⟨binding, hbinding, hleaves, hresolved⟩ := hleaving' receipt' hlast'
    obtain ⟨_, _, _, _, _, _, _, -, -, -, -, rfl⟩ := resolveBinding_eq_ok hresolved
    exact absurd hleaves (hnew receipt known hknown binding hbinding hknownId hdone hid.symm)
  · obtain ⟨known, hknown, hknownId, hdone⟩ := H'.sources receipt' hold'
    obtain ⟨binding, hbinding, hleaves, hresolved⟩ := hleaving receipt hlast
    obtain ⟨_, _, _, _, _, _, _, -, -, -, -, rfl⟩ := resolveBinding_eq_ok hresolved
    exact absurd hleaves (hnew receipt' known hknown binding hbinding hknownId hdone hid)
  · obtain ⟨binding, hbinding, -, hresolved⟩ := hleaving receipt hlast
    obtain ⟨binding', hbinding', -, hresolved'⟩ := hleaving' receipt' hlast'
    obtain ⟨stageId, pointId, measurementId, component, item, value, conditions, hsource, hitem,
      hvalue, hconditions, rfl⟩ := resolveBinding_eq_ok hresolved
    obtain ⟨_, _, _, _, item', value', conditions', hsource', hitem', hvalue', hconditions',
      rfl⟩ := resolveBinding_eq_ok hresolved'
    obtain rfl := List.inj_on_of_nodup_map (binding_ids_nodup haccepted) hbinding hbinding' hid
    obtain ⟨rfl, rfl, rfl, rfl⟩ := BindingSource.measurement.inj (hsource'.symm.trans hsource)
    obtain ⟨found, hget, hname⟩ := valuesAt_get? hitem
    obtain ⟨found', hget', hname'⟩ := valuesAt_get? hitem'
    rw [receiptConditions_eq hconditions rfl] at hids
    obtain ⟨rfl, hagree⟩ := h.points_step haccepted hstage hfresh H H' hsame hstep hstep' hn hn'
      hget hget' hname hids
    obtain rfl := Option.some.inj (hname'.symm.trans hname)
    obtain rfl := Except.ok.inj (hvalue'.symm.trans hvalue)
    obtain rfl := contributingAttempts_agree hconditions hconditions' hagree
    rfl

/-- Two finished stage loops agree on what rests on conditions both executors answer alike. -/
theorem runStages_agree (plan : PreparedPlan F) (hplan : ctx.plan = plan.document)
    (hsame : ∀ condition : CompiledCondition, condition.conditionId ∈ ids →
      ctx.executor condition = executor condition)
    (hrun : runStages ctx = .ok state)
    (hrun' : runStages (ctx.withExecutor executor) = .ok state')
    (hn : (attemptIds state.attempts).Nodup) (hn' : (attemptIds state'.attempts).Nodup) :
    Agree ids state state' := by
  have haccepted : Accepted F ctx.plan := hplan ▸ accepted_iff.mp plan.accepted
  unfold runStages at hrun hrun'
  obtain ⟨scheduled, hscheduled, hrun⟩ := Except.bind_eq_ok.mp hrun
  obtain ⟨scheduled', hscheduled', hrun'⟩ := Except.bind_eq_ok.mp hrun'
  obtain rfl := Except.ok.inj (hscheduled'.symm.trans hscheduled)
  rw [hplan] at hscheduled
  obtain ⟨hdistinct, hdeclared⟩ := scheduledStages_distinct hscheduled
  have hback : ∀ (ctx : RunContext F) (state : RunState F) (stage : Stage) (next : RunState F),
      runStage ctx state stage = .ok next → (attemptIds next.attempts).Nodup →
        (attemptIds state.attempts).Nodup := by
    intro ctx state stage next hstep hnext
    obtain ⟨more, hmore⟩ := runStage_attempts hstep
    rw [hmore, attemptIds, List.map_append] at hnext
    exact (List.nodup_append.mp hnext).1
  have hinitial : ∀ ctx : RunContext F, HandedOn ctx [] .initial := by
    intro ctx
    exact ⟨Traced.initial, rfl, by simp [RunState.initial], by simp [RunState.initial],
      by simp [RunState.initial, UpstreamLineage.at]⟩
  refine (Except.foldlM_relation (fun done (state state' : RunState F) =>
    HandedOn ctx (done.map Stage.id) state ∧
      HandedOn (ctx.withExecutor executor) (done.map Stage.id) state' ∧ Agree ids state state')
    (fun state => (attemptIds state.attempts).Nodup)
    (fun state => (attemptIds state.attempts).Nodup) (hback _) (hback _) ?_
    ⟨hinitial _, hinitial _, ?_, ?_⟩ hrun hrun' hn hn').2.2
  · intro done stage rest state next state' next' hsplit hboth hstep hstep' hn hn'
    obtain ⟨H, H', hagree⟩ := hboth
    rw [hsplit, List.map_append, List.map_cons, List.nodup_append] at hdistinct
    have hfresh : stage.id ∉ done.map Stage.id := fun hmem =>
      hdistinct.2.2 _ hmem _ List.mem_cons_self rfl
    have hstage : stage ∈ ctx.plan.stages :=
      hplan ▸ hdeclared stage (hsplit ▸ List.mem_append_right _ List.mem_cons_self)
    rw [List.map_append, List.map_singleton]
    exact ⟨runStage_handedOn H hfresh hstep, runStage_handedOn H' hfresh hstep',
      hagree.step haccepted hstage hfresh H H' hsame hstep hstep' hn hn'⟩
  · intro key found found' hget
    cases hget
  · intro receipt hreceipt
    cases hreceipt

/-- A published measured value is a stored value of the point its observable reads. -/
theorem Finished.measured {elapsed : F} {result : RunResult F}
    (hfinished : Finished ctx elapsed result state) (plan : PreparedPlan F)
    (hplan : ctx.plan = plan.document) {observable : Observable}
    (hdeclared : observable ∈ ctx.plan.observables) {value : Payload F}
    (hpublished : result.envelope.observables.get? observable.id = some (.measured value)) :
    ∃ stageId pointId measurementId item,
      observable.source = .measurement stageId pointId measurementId ∧
      (valuesAt state.conditionValues (stageId, pointId)).get? measurementId = some item ∧
      item.value = value ∧
      (finalEmission ctx state).lineage.get? observable.id = some item.conditionIds := by
  obtain ⟨ids, hobserved, hclosed⟩ :=
    (hfinished.published plan hplan hdeclared).mp hpublished
  have hlineage := hfinished.published_lineage plan hplan hdeclared hobserved hclosed
  have hverdict : ∀ rule, linkedVerdict (F := F) (ruleScan (outputContext ctx state)).verdicts
      rule ≠ some (.measured value, ids) := by
    intro rule hlinked
    unfold linkedVerdict at hlinked
    obtain ⟨text, -, hlinked⟩ := Option.bind_eq_some_iff.mp hlinked
    split_ifs at hlinked
    cases (Prod.mk.inj (Option.some.inj hlinked)).1
  unfold observed? at hobserved
  cases hsource : observable.source with
  | measurement stageId pointId measurementId =>
    rw [hsource] at hobserved
    obtain ⟨item, hitem, heq⟩ := Option.map_eq_some_iff.mp hobserved
    obtain ⟨hvalue, rfl⟩ := Prod.mk.inj heq
    exact ⟨stageId, pointId, measurementId, item, rfl, hitem, Observed.measured.inj hvalue,
      hlineage⟩
  | validity stageId pointId ruleId =>
    rw [hsource] at hobserved
    exact absurd hobserved (hverdict _)
  | stageValidity stageId ruleId =>
    rw [hsource] at hobserved
    exact absurd hobserved (hverdict _)
  | reduction stageId reductionId component =>
    rw [hsource] at hobserved
    cases hobserved

def reservedExecutor : ConditionExecutor := fun condition =>
  if condition.conditionId = "first.p" then .returned specimenExecution else .invalidRecord

theorem reservedExecutor_measures :
    ((executeTestbenchPlanNgspice (waveContext.withExecutor reservedExecutor) 1).toOption.bind
      fun result => (result.envelope.observables.get? "wave").bind Observed.measured?).isSome := by
  decide +kernel

end Comparison

end OpenADA.Runner

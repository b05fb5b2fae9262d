import Mathlib.Data.List.Basic

/-! A checked left scan: every step sees the position and the state left by the earlier items
and may add findings. A scan is clean when no step found anything. -/
namespace Scan

variable {σ α ι : Type}

def run (step : σ → ℕ → α → σ × List ι) : σ → ℕ → List α → σ × List ι
  | state, _, [] => (state, [])
  | state, index, item :: rest =>
    let here := step state index item
    let later := run step here.1 (index + 1) rest
    (later.1, here.2 ++ later.2)

@[simp] theorem run_nil (step : σ → ℕ → α → σ × List ι) (state : σ) (index : ℕ) :
    run step state index [] = (state, []) := rfl

theorem run_cons_state (step : σ → ℕ → α → σ × List ι) (state : σ) (index : ℕ) (item : α)
    (rest : List α) :
    (run step state index (item :: rest)).1 =
      (run step (step state index item).1 (index + 1) rest).1 := rfl

theorem run_cons_clean {step : σ → ℕ → α → σ × List ι} {state : σ} {index : ℕ} {item : α}
    {rest : List α} : (run step state index (item :: rest)).2 = [] ↔
      (step state index item).2 = [] ∧
        (run step (step state index item).1 (index + 1) rest).2 = [] := by
  simp [run, List.append_eq_nil_iff]

/-- What every clean step keeps true of the processed prefix holds after a clean scan. -/
theorem run_invariant {step : σ → ℕ → α → σ × List ι} (inv : List α → σ → Prop)
    (hstep : ∀ done state item, inv done state → (step state done.length item).2 = [] →
      inv (done ++ [item]) (step state done.length item).1)
    (items done : List α) (state : σ) (h : inv done state)
    (hclean : (run step state done.length items).2 = []) :
    inv (done ++ items) (run step state done.length items).1 := by
  induction items generalizing done state with
  | nil => simpa using h
  | cons item rest ih =>
    obtain ⟨hhere, hlater⟩ := run_cons_clean.mp hclean
    have hlen : done.length + 1 = (done ++ [item]).length := by simp
    rw [hlen] at hlater
    have hnext := ih (done ++ [item]) _ (hstep done state item h hhere) hlater
    rw [run_cons_state, hlen]
    simpa using hnext

theorem run_spec (step : σ → ℕ → α → σ × List ι) (inv : List α → σ → Prop)
    (hstep : ∀ done state item, inv done state → (step state done.length item).2 = [] →
      inv (done ++ [item]) (step state done.length item).1)
    {items : List α} {state : σ} (h : inv [] state) (hclean : (run step state 0 items).2 = []) :
    inv items (run step state 0 items).1 := by
  simpa using run_invariant inv hstep items [] state h hclean

/-- Every item of a clean scan was met by a clean step, with the invariant at hand. -/
theorem run_reached (step : σ → ℕ → α → σ × List ι) (inv : List α → σ → Prop)
    (hstep : ∀ done state item, inv done state → (step state done.length item).2 = [] →
      inv (done ++ [item]) (step state done.length item).1)
    {items : List α} {state : σ} (h : inv [] state) (hclean : (run step state 0 items).2 = [])
    {item : α} (hmem : item ∈ items) : ∃ done rest state', items = done ++ item :: rest ∧
      inv done state' ∧ (step state' done.length item).2 = [] := by
  suffices hrun : ∀ items done state, inv done state → (run step state done.length items).2 = [] →
      item ∈ items → ∃ front rest state', done ++ items = front ++ item :: rest ∧
        inv front state' ∧ (step state' front.length item).2 = [] from
    hrun items [] state h hclean hmem
  intro items
  induction items with
  | nil => exact fun _ _ _ _ hm => nomatch hm
  | cons first rest ih =>
    intro done state hinv hclean hm
    obtain ⟨hhere, hlater⟩ := run_cons_clean.mp hclean
    rcases List.mem_cons.mp hm with rfl | hrest
    · exact ⟨done, rest, state, rfl, hinv, hhere⟩
    · have hlen : done.length + 1 = (done ++ [first]).length := by simp
      rw [hlen] at hlater
      obtain ⟨front, back, state', hsplit, hfront, hitem⟩ :=
        ih (done ++ [first]) _ (hstep done state first hinv hhere) hlater hrest
      exact ⟨front, back, state', by rw [← hsplit]; simp, hfront, hitem⟩

theorem run_clean_mem {step : σ → ℕ → α → σ × List ι} {items : List α} {state : σ}
    (hclean : (run step state 0 items).2 = []) {item : α} (h : item ∈ items) :
    ∃ state' index', (step state' index' item).2 = [] := by
  obtain ⟨done, _, state', _, _, hitem⟩ := run_reached step (fun _ _ => True)
    (fun _ _ _ _ _ => trivial) trivial hclean h
  exact ⟨state', done.length, hitem⟩

end Scan

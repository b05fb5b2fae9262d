import Mathlib.Data.List.Basic
import Mathlib.Tactic

/-! Rules for computations that may fail: binds, mapped lists and monadic folds. -/
namespace Except

variable {ε α β γ : Type}

theorem bind_eq_ok {x : Except ε α} {f : α → Except ε β} {b : β} :
    (x >>= f) = .ok b ↔ ∃ a, x = .ok a ∧ f a = .ok b := by
  cases x with
  | error e =>
    constructor
    · exact fun h => nomatch h
    · rintro ⟨_, h, _⟩
      cases h
  | ok a =>
    constructor
    · exact fun h => ⟨a, rfl, h⟩
    · rintro ⟨a', ha, h⟩
      cases ha
      exact h

theorem bind_eq_error {x : Except ε α} {f : α → Except ε β} {e : ε} :
    (x >>= f) = .error e ↔ x = .error e ∨ ∃ a, x = .ok a ∧ f a = .error e := by
  cases x with
  | error e' =>
    constructor
    · intro h
      exact .inl (congrArg _ (Except.error.inj h))
    · rintro (h | ⟨_, h, _⟩)
      · exact congrArg _ (Except.error.inj h)
      · cases h
  | ok a =>
    constructor
    · exact fun h => .inr ⟨a, rfl, h⟩
    · rintro (h | ⟨_, h, hf⟩)
      · cases h
      · cases h
        exact hf

theorem map_eq_error {x : Except ε α} {f : α → β} {e : ε} (h : x.map f = .error e) :
    x = .error e := by
  cases x with
  | error e' => rw [Except.error.inj h]
  | ok a => cases h

theorem map_eq_ok {x : Except ε α} {f : α → β} {b : β} :
    x.map f = .ok b ↔ ∃ a, x = .ok a ∧ f a = b := by
  cases x with
  | error e =>
    constructor
    · intro h
      cases h
    · rintro ⟨a, h, -⟩
      cases h
  | ok a =>
    constructor
    · exact fun h => ⟨a, rfl, Except.ok.inj h⟩
    · rintro ⟨a', h, rfl⟩
      rw [Except.ok.inj h]
      rfl

theorem guard_eq_ok {c : Prop} [Decidable c] {e : ε} {x : Except ε α} {a : α} :
    (if c then .error e else x) = .ok a ↔ ¬ c ∧ x = .ok a := by
  by_cases hc : c
  · rw [if_pos hc]
    constructor
    · intro h
      cases h
    · exact fun h => absurd hc h.1
  · rw [if_neg hc]
    exact ⟨fun h => ⟨hc, h⟩, And.right⟩

theorem ok_bind (a : α) (f : α → Except ε β) : ((Except.ok a : Except ε α) >>= f) = f a := rfl

/-- A mapped list that succeeded relates its items to its results one by one. -/
theorem mapM_eq_ok {f : α → Except ε β} {items : List α} {out : List β} :
    items.mapM f = .ok out ↔ List.Forall₂ (fun a b => f a = .ok b) items out := by
  induction items generalizing out with
  | nil =>
    rw [List.mapM_nil, List.forall₂_nil_left_iff]
    exact ⟨fun h => (Except.ok.inj h).symm, fun h => by rw [h]; rfl⟩
  | cons a rest ih =>
    rw [List.mapM_cons, bind_eq_ok, List.forall₂_cons_left_iff]
    constructor
    · rintro ⟨b, hb, h⟩
      obtain ⟨bs, hbs, h⟩ := bind_eq_ok.mp h
      exact ⟨b, bs, hb, ih.mp hbs, (Except.ok.inj h).symm⟩
    · rintro ⟨b, bs, hb, hbs, rfl⟩
      exact ⟨b, hb, bind_eq_ok.mpr ⟨bs, ih.mpr hbs, rfl⟩⟩

theorem exists_of_mem_mapM {f : α → Except ε β} {items : List α} {out : List β}
    (h : items.mapM f = .ok out) {b : β} (hb : b ∈ out) : ∃ a ∈ items, f a = .ok b := by
  induction mapM_eq_ok.mp h with
  | nil => cases hb
  | cons hfirst hrest ih =>
    rcases List.mem_cons.mp hb with rfl | hb
    · exact ⟨_, List.mem_cons_self .., hfirst⟩
    · obtain ⟨a, ha, hf⟩ := ih (mapM_eq_ok.mpr hrest) hb
      exact ⟨a, List.mem_cons_of_mem _ ha, hf⟩

theorem exists_mem_of_mapM {f : α → Except ε β} {items : List α} {out : List β}
    (h : items.mapM f = .ok out) {a : α} (ha : a ∈ items) : ∃ b ∈ out, f a = .ok b := by
  induction mapM_eq_ok.mp h with
  | nil => cases ha
  | cons hfirst hrest ih =>
    rcases List.mem_cons.mp ha with rfl | ha
    · exact ⟨_, List.mem_cons_self .., hfirst⟩
    · obtain ⟨b, hb, hf⟩ := ih (mapM_eq_ok.mpr hrest) ha
      exact ⟨b, List.mem_cons_of_mem _ hb, hf⟩

theorem mapM_eq_error {f : α → Except ε β} {items : List α} {e : ε} :
    items.mapM f = .error e ↔ ∃ before a after, items = before ++ a :: after ∧
      (∀ item ∈ before, ∃ b, f item = .ok b) ∧ f a = .error e := by
  induction items with
  | nil =>
    constructor
    · intro h
      cases h
    · rintro ⟨before, a, after, hitems, -⟩
      exact absurd hitems (by simp)
  | cons first rest ih =>
    rw [List.mapM_cons, bind_eq_error]
    constructor
    · rintro (hfirst | ⟨b, hb, hrest⟩)
      · exact ⟨[], first, rest, rfl, by simp, hfirst⟩
      · rcases bind_eq_error.mp hrest with hrest | ⟨_, -, hrest⟩
        · obtain ⟨before, a, after, rfl, hbefore, ha⟩ := ih.mp hrest
          exact ⟨first :: before, a, after, rfl, List.forall_mem_cons.mpr ⟨⟨b, hb⟩, hbefore⟩, ha⟩
        · cases hrest
    · rintro ⟨before, a, after, hitems, hbefore, ha⟩
      cases before with
      | nil =>
        obtain ⟨rfl, rfl⟩ := List.cons.inj hitems
        exact .inl ha
      | cons head before =>
        obtain ⟨rfl, rfl⟩ := List.cons.inj hitems
        obtain ⟨⟨b, hb⟩, hbefore⟩ := List.forall_mem_cons.mp hbefore
        exact .inr ⟨b, hb, bind_eq_error.mpr (.inl (ih.mpr ⟨before, a, after, rfl, hbefore, ha⟩))⟩

theorem mapM_zipIdx_eq_error {f : α × ℕ → Except ε β} {items : List α} {start : ℕ} {e : ε} :
    (items.zipIdx start).mapM f = .error e ↔ ∃ before a after, items = before ++ a :: after ∧
      (∀ entry ∈ before.zipIdx start, ∃ b, f entry = .ok b) ∧
        f (a, start + before.length) = .error e := by
  rw [mapM_eq_error]
  constructor
  · rintro ⟨_, entry, _, hitems, hbefore, hentry⟩
    obtain ⟨before, others, rfl, rfl, hothers⟩ := List.zipIdx_eq_append_iff.mp hitems
    obtain ⟨a, after, rfl, rfl, -⟩ := List.zipIdx_eq_cons_iff.mp hothers.symm
    exact ⟨before, a, after, rfl, hbefore, hentry⟩
  · rintro ⟨before, a, after, rfl, hbefore, ha⟩
    refine ⟨before.zipIdx start, (a, start + before.length),
      after.zipIdx (start + before.length + 1), ?_, hbefore, ha⟩
    rw [List.zipIdx_append, List.zipIdx_cons]

theorem mapM_eq_map {f : α → Except ε β} {g : α → β} {items : List α}
    (h : ∀ a ∈ items, f a = .ok (g a)) : items.mapM f = .ok (items.map g) := by
  rw [mapM_eq_ok, List.forall₂_map_right_iff, List.forall₂_same]
  exact h

theorem map_of_mapM_eq_ok {f : α → Except ε β} {g : β → γ} {g' : α → γ}
    {items : List α} {out : List β} (h : items.mapM f = .ok out)
    (hg : ∀ a b, f a = .ok b → g b = g' a) : out.map g = items.map g' := by
  have hpairs := mapM_eq_ok.mp h
  clear h
  induction hpairs with
  | nil => rfl
  | cons hitem _ ih => rw [List.map_cons, List.map_cons, hg _ _ hitem, ih]

theorem exists_mapM_ok {f : α → Except ε β} {items : List α}
    (h : ∀ a ∈ items, ∃ b, f a = .ok b) :
    ∃ out, items.mapM f = .ok out ∧ out.length = items.length := by
  induction items with
  | nil => exact ⟨[], rfl, rfl⟩
  | cons a items ih =>
    obtain ⟨⟨b, hb⟩, hrest⟩ := List.forall_mem_cons.mp h
    obtain ⟨out, hout, hlength⟩ := ih hrest
    refine ⟨b :: out, ?_, by rw [List.length_cons, List.length_cons, hlength]⟩
    rw [List.mapM_cons, hb, ok_bind, hout]
    rfl

theorem toOption_ok (a : α) : (Except.ok a : Except ε α).toOption = some a := rfl

theorem toOption_bind (x : Except ε α) (f : α → Except ε β) :
    (x >>= f).toOption = x.toOption.bind fun a => (f a).toOption := by
  cases x <;> rfl

/-- A computation that is seen to succeed with a value of some kind does so. -/
theorem exists_ok_of_any {x : Except ε α} {p : α → Bool} (h : x.toOption.any p = true) :
    ∃ a, x = .ok a ∧ p a = true := by
  cases x with
  | error e => cases h
  | ok a => exact ⟨a, rfl, h⟩

theorem exists_ok_of_isSome {x : Except ε α} (h : x.toOption.isSome = true) : ∃ a, x = .ok a := by
  cases x with
  | error e => cases h
  | ok a => exact ⟨a, rfl⟩

theorem forM_eq_ok {f : α → Except ε Unit} {items : List α} :
    items.forM f = .ok () ↔ ∀ item ∈ items, f item = .ok () := by
  induction items with
  | nil => exact ⟨fun _ item hitem => absurd hitem List.not_mem_nil, fun _ => rfl⟩
  | cons item rest ih =>
    show (f item >>= fun _ => rest.forM f) = .ok () ↔ _
    rw [bind_eq_ok, List.forall_mem_cons, ← ih]
    constructor
    · rintro ⟨_, hitem, hrest⟩
      exact ⟨hitem, hrest⟩
    · rintro ⟨hitem, hrest⟩
      exact ⟨(), hitem, hrest⟩

variable {σ : Type} {step : σ → α → Except ε σ}

theorem foldlM_cons_eq_ok {a : α} {rest : List α} {s s' : σ} :
    (a :: rest).foldlM step s = .ok s' ↔
      ∃ next, step s a = .ok next ∧ rest.foldlM step next = .ok s' := by
  rw [List.foldlM_cons, bind_eq_ok]

theorem foldlM_nil_eq_ok {s s' : σ} : ([] : List α).foldlM step s = .ok s' ↔ s' = s := by
  rw [List.foldlM_nil]
  exact ⟨fun h => (Except.ok.inj h).symm, fun h => by rw [h]; rfl⟩

/-- A fold whose steps first map their item is a fold over the mapped list. -/
theorem foldlM_bind_eq_ok {f : α → Except ε β} {g : σ → β → Except ε σ} {items : List α}
    {s t : σ} : items.foldlM (fun s a => f a >>= g s) s = .ok t ↔
      ∃ out, List.Forall₂ (fun a b => f a = .ok b) items out ∧ out.foldlM g s = .ok t := by
  induction items generalizing s with
  | nil =>
    simp only [List.forall₂_nil_left_iff, exists_eq_left]
    rfl
  | cons a rest ih =>
    rw [List.foldlM_cons, bind_eq_ok]
    constructor
    · rintro ⟨s', hstep, hrest⟩
      obtain ⟨b, hb, hg⟩ := bind_eq_ok.mp hstep
      obtain ⟨out, hout, hfold⟩ := ih.mp hrest
      exact ⟨b :: out, List.Forall₂.cons hb hout, bind_eq_ok.mpr ⟨s', hg, hfold⟩⟩
    · rintro ⟨out, hall, hfold⟩
      obtain ⟨b, out, hb, hout, rfl⟩ := List.forall₂_cons_left_iff.mp hall
      obtain ⟨s', hg, hfold⟩ := bind_eq_ok.mp hfold
      exact ⟨s', bind_eq_ok.mpr ⟨b, hb, hg⟩, ih.mpr ⟨out, hout, hfold⟩⟩

theorem foldlM_eq_error {items : List α} {s : σ} {e : ε} (hrun : items.foldlM step s = .error e) :
    ∃ done a rest s', items = done ++ a :: rest ∧ done.foldlM step s = .ok s' ∧
      step s' a = .error e := by
  induction items generalizing s with
  | nil => cases hrun
  | cons a rest ih =>
    rw [List.foldlM_cons] at hrun
    cases hstep : step s a with
    | error e' =>
      rw [hstep] at hrun
      obtain rfl := Except.error.inj hrun
      exact ⟨[], a, rest, s, rfl, rfl, hstep⟩
    | ok next =>
      rw [hstep] at hrun
      obtain ⟨done, b, after, s', rfl, hdone, hfail⟩ := ih hrun
      exact ⟨a :: done, b, after, s', rfl, foldlM_cons_eq_ok.mpr ⟨next, hstep, hdone⟩, hfail⟩

theorem foldlM_error_of_prefix {done rest : List α} {a : α} {s s' : σ} {e : ε}
    (hdone : done.foldlM step s = .ok s') (hstep : step s' a = .error e) :
    (done ++ a :: rest).foldlM step s = .error e := by
  rw [List.foldlM_append, hdone, ok_bind, List.foldlM_cons, hstep]
  rfl

/-- What every successful step leaves true backwards holds at the start of a fold. -/
theorem foldlM_backwards {good : σ → Prop}
    (hgood : ∀ s a s', step s a = .ok s' → good s' → good s) {items : List α} {s s' : σ}
    (hrun : items.foldlM step s = .ok s') (h : good s') : good s := by
  induction items generalizing s with
  | nil =>
    rw [foldlM_nil_eq_ok] at hrun
    exact hrun ▸ h
  | cons a rest ih =>
    obtain ⟨next, hstep, hrest⟩ := foldlM_cons_eq_ok.mp hrun
    exact hgood s a next hstep (ih hrest)

/-- The invariant rule of a monadic fold. A property `good` of the final state that every step
passes backwards is available at each step. -/
theorem foldlM_invariant {items : List α} (inv : List α → σ → Prop) (good : σ → Prop)
    (hgood : ∀ s a s', step s a = .ok s' → good s' → good s)
    (hstep : ∀ done a rest s s', items = done ++ a :: rest → inv done s → step s a = .ok s' →
      good s' → inv (done ++ [a]) s')
    {s s' : σ} (hinit : inv [] s) (hrun : items.foldlM step s = .ok s') (hfinal : good s') :
    inv items s' := by
  suffices h : ∀ rest done s, items = done ++ rest → inv done s →
      rest.foldlM step s = .ok s' → inv items s' from h items [] s rfl hinit hrun
  intro rest
  induction rest with
  | nil =>
    intro done s hitems hinv hrun
    rw [foldlM_nil_eq_ok] at hrun
    rw [hitems, List.append_nil, hrun]
    exact hinv
  | cons a rest ih =>
    intro done s hitems hinv hrun
    obtain ⟨next, hnext, hrest⟩ := foldlM_cons_eq_ok.mp hrun
    have hinv' := hstep done a rest s next hitems hinv hnext (foldlM_backwards hgood hrest hfinal)
    exact ih (done ++ [a]) next (by rw [hitems]; simp) hinv' hrest

theorem foldlM_spec {items : List α} (inv : List α → σ → Prop)
    (hstep : ∀ done a s s', inv done s → step s a = .ok s' → inv (done ++ [a]) s')
    {s s' : σ} (hinit : inv [] s) (hrun : items.foldlM step s = .ok s') : inv items s' :=
  foldlM_invariant inv (fun _ => True) (fun _ _ _ _ _ => trivial)
    (fun done a _ s s' _ hinv hs _ => hstep done a s s' hinv hs) hinit hrun trivial

/-- A fold whose steps are checked updates succeeds exactly when every item passes. -/
theorem foldlM_checked_eq_ok {update : σ → α → σ} {check : α → Prop}
    (hstep : ∀ s a s', step s a = .ok s' ↔ s' = update s a ∧ check a)
    {items : List α} {s s' : σ} :
    items.foldlM step s = .ok s' ↔ s' = items.foldl update s ∧ ∀ a ∈ items, check a := by
  induction items generalizing s with
  | nil =>
    rw [foldlM_nil_eq_ok]
    simp
  | cons a rest ih =>
    rw [foldlM_cons_eq_ok]
    simp only [hstep, ih, List.foldl_cons, List.forall_mem_cons]
    constructor
    · rintro ⟨_, ⟨rfl, ha⟩, rfl, hrest⟩
      exact ⟨rfl, ha, hrest⟩
    · rintro ⟨rfl, ha, hrest⟩
      exact ⟨_, ⟨rfl, ha⟩, rfl, hrest⟩

/-- A fold that appends one result per item succeeds exactly when every item passes its check
against the results before it. -/
theorem foldlM_append_eq_ok {step : List β → α → Except ε (List β)} {f : α → β}
    {c : List β → α → Prop}
    (hstep : ∀ seen a out, step seen a = .ok out ↔ out = seen ++ [f a] ∧ c seen a)
    {items : List α} {seen out : List β} :
    items.foldlM step seen = .ok out ↔ out = seen ++ items.map f ∧
      ∀ before a after, items = before ++ a :: after → c (seen ++ before.map f) a := by
  induction items generalizing seen with
  | nil =>
    rw [foldlM_nil_eq_ok]
    simp
  | cons a rest ih =>
    rw [foldlM_cons_eq_ok]
    simp only [hstep, ih]
    constructor
    · rintro ⟨next, ⟨rfl, hcheck⟩, rfl, hrest⟩
      refine ⟨by simp, ?_⟩
      intro before b after hsplit
      cases before with
      | nil =>
        obtain ⟨rfl, _⟩ := List.cons.inj hsplit
        simpa using hcheck
      | cons head before =>
        obtain ⟨rfl, htail⟩ := List.cons.inj hsplit
        simpa using hrest before b after htail
    · rintro ⟨rfl, hall⟩
      refine ⟨_, ⟨rfl, by simpa using hall [] a rest rfl⟩, by simp, ?_⟩
      intro before b after hsplit
      simpa using hall (a :: before) b after (by rw [hsplit, List.cons_append])

variable {τ : Type} {step' : τ → α → Except ε τ}

/-- The relational invariant rule: two folds over the same items, step by step. Properties of
the two final states that every step passes backwards are available at each step. -/
theorem foldlM_relation {items : List α} (rel : List α → σ → τ → Prop) (good : σ → Prop)
    (good' : τ → Prop) (hgood : ∀ s a s', step s a = .ok s' → good s' → good s)
    (hgood' : ∀ t a t', step' t a = .ok t' → good' t' → good' t)
    (hstep : ∀ done a rest s s' t t', items = done ++ a :: rest → rel done s t →
      step s a = .ok s' → step' t a = .ok t' → good s' → good' t' → rel (done ++ [a]) s' t')
    {s s' : σ} {t t' : τ} (hinit : rel [] s t) (hrun : items.foldlM step s = .ok s')
    (hrun' : items.foldlM step' t = .ok t') (hfinal : good s') (hfinal' : good' t') :
    rel items s' t' := by
  suffices h : ∀ rest done s t, items = done ++ rest → rel done s t →
      rest.foldlM step s = .ok s' → rest.foldlM step' t = .ok t' → rel items s' t' from
    h items [] s t rfl hinit hrun hrun'
  intro rest
  induction rest with
  | nil =>
    intro done s t hitems hrel hs ht
    rw [foldlM_nil_eq_ok] at hs ht
    rw [hitems, List.append_nil, hs, ht]
    exact hrel
  | cons a rest ih =>
    intro done s t hitems hrel hs ht
    obtain ⟨next, hnext, hrest⟩ := foldlM_cons_eq_ok.mp hs
    obtain ⟨next', hnext', hrest'⟩ := foldlM_cons_eq_ok.mp ht
    have hrel' := hstep done a rest s next t next' hitems hrel hnext hnext'
      (foldlM_backwards hgood hrest hfinal) (foldlM_backwards hgood' hrest' hfinal')
    exact ih (done ++ [a]) next next' (by rw [hitems]; simp) hrel' hrest hrest'

end Except

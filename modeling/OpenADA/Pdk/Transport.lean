import OpenADA.Pdk.Views

/-! The transport closure: it captures the files it walks and is closed under every locator that
stands in them. -/
namespace OpenADA.Pdk

variable {source : Source}

def Faithful (source : Source) (b : Builder) : Prop :=
  ∀ path body, b.captured.get? path = some body →
    source.tree.capture (source.root ++ path) = some body

structure KeepsWalk (b b' : Builder) : Prop where
  records : b'.closureRecords = b.closureRecords
  models : b'.namespaceModels = b.namespaceModels
  globals : b'.namespaceGlobals = b.namespaceGlobals
  walked : b'.walkedViews = b.walkedViews
  active : b'.activeViews = b.activeViews

theorem KeepsWalk.refl (b : Builder) : KeepsWalk b b := ⟨rfl, rfl, rfl, rfl, rfl⟩

theorem KeepsWalk.names {b b' : Builder} (h : KeepsWalk b b') (kind : NameKind) :
    b'.names kind = b.names kind := by
  cases kind with
  | model => exact h.models
  | global => exact h.globals

theorem KeepsWalk.trans {a b c : Builder} (hab : KeepsWalk a b) (hbc : KeepsWalk b c) :
    KeepsWalk a c :=
  ⟨hbc.records.trans hab.records, hbc.models.trans hab.models, hbc.globals.trans hab.globals,
    hbc.walked.trans hab.walked, hbc.active.trans hab.active⟩

structure Captures (source : Source) (relative : Path) (body : Body) (b b' : Builder) : Prop where
  faithful : Faithful source b'
  stored : b'.captured.get? relative = some body
  grown : ∀ path other, b.captured.get? path = some other → b'.captured.get? path = some other
  transportWalked : b'.transportWalked = b.transportWalked
  transportActive : b'.transportActive = b.transportActive
  walk : KeepsWalk b b'

theorem captureMaterial_ok {b b' : Builder} {relative : Path} {role : MaterialRole} {body : Body}
    (hb : Faithful source b) (h : captureMaterial source b relative role = .ok (body, b')) :
    Captures source relative body b b' := by
  obtain ⟨⟨found, c⟩, hcapture, hout⟩ := Except.bind_eq_ok.mp h
  obtain ⟨rfl, rfl⟩ := Prod.mk.inj (Except.ok.inj hout)
  unfold capture at hcapture
  cases hget : b.captured.get? relative with
  | some held =>
    rw [hget] at hcapture
    obtain ⟨rfl, rfl⟩ := Prod.mk.inj (Except.ok.inj hcapture)
    exact ⟨hb, hget, fun _ _ h => h, rfl, rfl, ⟨rfl, rfl, rfl, rfl, rfl⟩⟩
  | none =>
    rw [hget] at hcapture
    simp only at hcapture
    split at hcapture
    · cases hcapture
    · cases hread : source.tree.capture (source.root ++ relative) with
      | none =>
        rw [hread] at hcapture
        cases hcapture
      | some bytes =>
        rw [hread] at hcapture
        simp only at hcapture
        split_ifs at hcapture
        obtain ⟨rfl, rfl⟩ := Prod.mk.inj (Except.ok.inj hcapture)
        refine ⟨?_, InsertionDict.get?_set_self .., ?_, rfl, rfl, ⟨rfl, rfl, rfl, rfl, rfl⟩⟩
        · intro path other hother
          simp only [InsertionDict.get?_set] at hother
          split_ifs at hother with hpath
          · rw [hpath, ← Option.some.inj hother]
            exact hread
          · exact hb path other hother
        · intro path other hother
          have hne : path ≠ relative := by
            rintro rfl
            rw [hget] at hother
            cases hother
          simp only [InsertionDict.get?_set, if_neg hne]
          exact hother

/-- What a part of the transport closure does. Files whose lines are still being read are the
active ones. -/
structure Transported (source : Source) (b b' : Builder) : Prop where
  faithful : Faithful source b'
  grown : ∀ path other, b.captured.get? path = some other → b'.captured.get? path = some other
  active : b'.transportActive = b.transportActive
  walked : b.transportWalked ⊆ b'.transportWalked
  captured : ∀ f ∈ b'.transportWalked, f ∉ b.transportWalked →
    ∃ body, b'.captured.get? f = some body
  closed : ∀ f ∈ b'.transportWalked, f ∉ b.transportWalked → ∀ g, TransportEdge source f g →
    g ∈ b'.transportWalked ∨ g ∈ b.transportActive
  walk : KeepsWalk b b'

theorem Transported.refl {b : Builder} (hb : Faithful source b) : Transported source b b where
  faithful := hb
  grown _ _ h := h
  active := rfl
  walked := List.Subset.refl _
  captured _ hf hn := absurd hf hn
  closed _ hf hn := absurd hf hn
  walk := .refl b

theorem Transported.trans {a b c : Builder} (hab : Transported source a b)
    (hbc : Transported source b c) : Transported source a c where
  faithful := hbc.faithful
  grown path other h := hbc.grown path other (hab.grown path other h)
  active := hbc.active.trans hab.active
  walked := List.Subset.trans hab.walked hbc.walked
  captured := by
    intro f hf hn
    by_cases hmid : f ∈ b.transportWalked
    · obtain ⟨body, hbody⟩ := hab.captured f hmid hn
      exact ⟨body, hbc.grown f body hbody⟩
    · exact hbc.captured f hf hmid
  closed := by
    intro f hf hn g hg
    by_cases hmid : f ∈ b.transportWalked
    · exact (hab.closed f hmid hn g hg).imp_left fun h => hbc.walked h
    · rw [← hab.active]
      exact hbc.closed f hf hmid g hg
  walk := hab.walk.trans hbc.walk

theorem Captures.transported {relative : Path} {body : Body} {b b' : Builder}
    (h : Captures source relative body b b') : Transported source b b' where
  faithful := h.faithful
  grown := h.grown
  active := h.transportActive
  walked := by rw [h.transportWalked]; exact List.Subset.refl _
  captured f hf hn := absurd (h.transportWalked ▸ hf) hn
  closed f hf hn := absurd (h.transportWalked ▸ hf) hn
  walk := h.walk

def LineNames (source : Source) (relative : Path) (line : List Char) (g : Path) : Prop :=
  ∃ tokens locator, directiveTokens line = .ok tokens ∧
    (directiveOf tokens ∈ includeDirectives ∧ tokens.tail = [locator] ∨
      directiveOf tokens = ".lib" ∧ ∃ name, tokens.tail = [locator, name]) ∧
    childPath source relative locator = .ok g

theorem transportLine_ok {recurse : Path → Builder → Except ClosureFault Builder}
    (hrec : ∀ child c c', Faithful source c → recurse child c = .ok c' →
      Transported source c c' ∧ child ∈ c'.transportWalked)
    {relative : Path} {b b' : Builder} {line : List Char} (hb : Faithful source b)
    (h : transportLine source recurse relative b line = .ok b') :
    Transported source b b' ∧ ∀ g, LineNames source relative line g →
      g ∈ b'.transportWalked ∨ g ∈ b.transportActive := by
  obtain ⟨tokens, htokens, h⟩ := Except.bind_eq_ok.mp h
  by_cases hinclude : directiveOf tokens ∈ includeDirectives
  · rw [if_pos hinclude] at h
    rcases tokens with _ | ⟨directive, _ | ⟨locator, _ | _⟩⟩ <;> try cases h
    obtain ⟨child, hchild, hrun⟩ := Except.bind_eq_ok.mp h
    obtain ⟨htrans, hmem⟩ := hrec child b b' hb hrun
    refine ⟨htrans, ?_⟩
    rintro g ⟨tokens', locator', htokens', hshape, hg⟩
    obtain rfl := Except.ok.inj (htokens.symm.trans htokens')
    rcases hshape with ⟨_, hshape⟩ | ⟨_, name, hshape⟩
    · obtain ⟨rfl, _⟩ := List.cons.inj hshape
      obtain rfl := Except.ok.inj (hchild.symm.trans hg)
      exact .inl hmem
    · cases hshape
  · rw [if_neg hinclude] at h
    by_cases hlib : directiveOf tokens = ".lib"
    · rw [if_pos hlib] at h
      rcases tokens with _ | ⟨directive, _ | ⟨locator, _ | ⟨name, _ | _⟩⟩⟩ <;> try cases h
      · refine ⟨.refl hb, ?_⟩
        rintro g ⟨tokens', locator', htokens', hshape, _⟩
        obtain rfl := Except.ok.inj (htokens.symm.trans htokens')
        rcases hshape with ⟨hdirective, _⟩ | ⟨_, name, hshape⟩
        · exact absurd hdirective hinclude
        · cases hshape
      · obtain ⟨child, hchild, hrun⟩ := Except.bind_eq_ok.mp h
        have hnamed : ∀ g, LineNames source relative line g → g = child := by
          rintro g ⟨tokens', locator', htokens', hshape, hg⟩
          obtain rfl := Except.ok.inj (htokens.symm.trans htokens')
          rcases hshape with ⟨hdirective, _⟩ | ⟨_, name, hshape⟩
          · exact absurd hdirective hinclude
          · obtain ⟨rfl, _⟩ := List.cons.inj hshape
            exact Except.ok.inj (hg.symm.trans hchild)
        simp only at hrun
        split at hrun
        · rename_i hknown
          obtain ⟨⟨body, c⟩, hcapture, hout⟩ := Except.bind_eq_ok.mp hrun
          obtain rfl := Except.ok.inj hout
          have hcaptures := captureMaterial_ok hb hcapture
          refine ⟨hcaptures.transported, fun g hg => ?_⟩
          rw [hnamed g hg, hcaptures.transportWalked]
          exact hknown.symm
        · obtain ⟨htrans, hmem⟩ := hrec child b b' hb hrun
          exact ⟨htrans, fun g hg => .inl (hnamed g hg ▸ hmem)⟩
    · rw [if_neg hlib] at h
      obtain rfl := Except.ok.inj h
      refine ⟨.refl hb, ?_⟩
      rintro g ⟨tokens', locator', htokens', hshape, _⟩
      obtain rfl := Except.ok.inj (htokens.symm.trans htokens')
      rcases hshape with ⟨hdirective, _⟩ | ⟨hdirective, _⟩
      · exact absurd hdirective hinclude
      · exact absurd hdirective hlib

/-- The closure of a file: it is walked, and every file named in a newly walked one is walked or
still active. -/
theorem captureTransportClosure_ok {levels : ℕ} {relative : Path} {b b' : Builder}
    (hb : Faithful source b) (h : captureTransportClosure source levels relative b = .ok b') :
    Transported source b b' ∧ relative ∈ b'.transportWalked := by
  induction levels generalizing relative b b' with
  | zero => cases h
  | succ levels ih =>
    unfold captureTransportClosure at h
    split_ifs at h with hactive hwalked
    · obtain rfl := Except.ok.inj h
      exact ⟨.refl hb, hwalked⟩
    obtain ⟨⟨body, c⟩, hcapture, h⟩ := Except.bind_eq_ok.mp h
    obtain ⟨last, hlines, hout⟩ := Except.bind_eq_ok.mp h
    obtain rfl := Except.ok.inj hout
    have hcaptures := captureMaterial_ok hb hcapture
    set entered : Builder := { c with transportActive := c.transportActive ++ [relative] }
    -- the lines read so far leave the files they name walked or active
    have hfold := Except.foldlM_spec (fun done s => Transported source entered s ∧
        ∀ line ∈ done, ∀ g, LineNames source relative line g →
          g ∈ s.transportWalked ∨ g ∈ entered.transportActive) ?_ ?_ hlines
    · obtain ⟨htrans, hnamed⟩ := hfold
      have hstart : entered.transportWalked = b.transportWalked := hcaptures.transportWalked
      have hstack : entered.transportActive = b.transportActive ++ [relative] :=
        congrArg (· ++ [relative]) hcaptures.transportActive
      have hgrown : ∀ path other, b.captured.get? path = some other →
          last.captured.get? path = some other :=
        fun path other hother => htrans.grown path other (hcaptures.grown path other hother)
      -- a file named by an active one is walked at the end, or active already before
      have hsettle : ∀ g, g ∈ last.transportWalked ∨ g ∈ entered.transportActive →
          g ∈ last.transportWalked ++ [relative] ∨ g ∈ b.transportActive := by
        intro g hg
        rw [hstack] at hg
        simp only [List.mem_append, List.mem_singleton] at hg ⊢
        tauto
      refine ⟨⟨htrans.faithful, hgrown, ?_, ?_, ?_, ?_, ?_⟩, by simp⟩
      · show last.transportActive.dropLast = b.transportActive
        rw [htrans.active, hstack, List.dropLast_concat]
      · exact fun f hf => List.mem_append_left _ (htrans.walked (hstart ▸ hf))
      · intro f hf hn
        rcases List.mem_append.mp hf with hf | hf
        · exact htrans.captured f hf (hstart ▸ hn)
        · obtain rfl := List.mem_singleton.mp hf
          exact ⟨body, htrans.grown f body hcaptures.stored⟩
      · intro f hf hn g hg
        apply hsettle
        rcases List.mem_append.mp hf with hf | hf
        · exact htrans.closed f hf (hstart ▸ hn) g hg
        · obtain rfl := List.mem_singleton.mp hf
          obtain ⟨other, line, tokens, locator, hread, hline, htokens, hshape, hchild⟩ := hg
          obtain rfl := Option.some.inj
            (hread.symm.trans (hcaptures.faithful f body hcaptures.stored))
          exact hnamed line hline g ⟨tokens, locator, htokens, hshape, hchild⟩
      · have hkeeps := htrans.walk
        have hbefore := hcaptures.walk
        exact ⟨hkeeps.records.trans hbefore.records, hkeeps.models.trans hbefore.models,
          hkeeps.globals.trans hbefore.globals, hkeeps.walked.trans hbefore.walked,
          hkeeps.active.trans hbefore.active⟩
    · intro done line s s' hinv hstep
      obtain ⟨htrans, hnamed⟩ := transportLine_ok (fun child c c' hc hrun => ih hc hrun)
        hinv.1.faithful hstep
      refine ⟨hinv.1.trans htrans, fun other hother g hg => ?_⟩
      rcases List.mem_append.mp hother with hother | hother
      · exact (hinv.2 other hother g hg).imp_left fun h => htrans.walked h
      · obtain rfl := List.mem_singleton.mp hother
        rw [← hinv.1.active]
        exact hnamed g hg
    · exact ⟨.refl hcaptures.faithful, fun line hline => absurd hline List.not_mem_nil⟩

structure TransportClosed (source : Source) (b : Builder) : Prop where
  faithful : Faithful source b
  idle : b.transportActive = []
  captured : ∀ f ∈ b.transportWalked, ∃ body, b.captured.get? f = some body
  closed : ∀ f ∈ b.transportWalked, ∀ g, TransportEdge source f g → g ∈ b.transportWalked

theorem TransportClosed.reach {b : Builder} (h : TransportClosed source b) {f g : Path}
    (hf : f ∈ b.transportWalked) (hfg : Relation.ReflTransGen (TransportEdge source) f g) :
    g ∈ b.transportWalked := by
  induction hfg with
  | refl => exact hf
  | tail _ hbc ih => exact h.closed _ ih _ hbc

theorem transportEntry_ok {relative : Path} {b b' : Builder} (hb : TransportClosed source b)
    (h : transportEntry source relative b = .ok b') :
    TransportClosed source b' ∧ relative ∈ b'.transportWalked ∧ KeepsWalk b b' := by
  obtain ⟨c, hclosure, h⟩ := Except.bind_eq_ok.mp h
  obtain ⟨⟨body, d⟩, hcapture, hout⟩ := Except.bind_eq_ok.mp h
  obtain rfl := Except.ok.inj hout
  obtain ⟨htrans, hmem⟩ := captureTransportClosure_ok hb.faithful hclosure
  have hcaptures := captureMaterial_ok htrans.faithful hcapture
  have hwalked : d.transportWalked = c.transportWalked := hcaptures.transportWalked
  refine ⟨⟨hcaptures.faithful, ?_, ?_, ?_⟩, ?_, ?_⟩
  · exact hcaptures.transportActive.trans (htrans.active.trans hb.idle)
  · intro f hf
    have hf : f ∈ c.transportWalked := hwalked ▸ hf
    by_cases hold : f ∈ b.transportWalked
    · obtain ⟨held, hheld⟩ := hb.captured f hold
      exact ⟨held, hcaptures.grown f held (htrans.grown f held hheld)⟩
    · obtain ⟨held, hheld⟩ := htrans.captured f hf hold
      exact ⟨held, hcaptures.grown f held hheld⟩
  · intro f hf g hg
    have hf : f ∈ c.transportWalked := hwalked ▸ hf
    show g ∈ d.transportWalked
    rw [hwalked]
    by_cases hold : f ∈ b.transportWalked
    · exact htrans.walked (hb.closed f hold g hg)
    · rcases htrans.closed f hf hold g hg with hg | hg
      · exact hg
      · rw [hb.idle] at hg
        exact absurd hg List.not_mem_nil
  · show relative ∈ d.transportWalked
    rw [hwalked]
    exact hmem
  · have hkeeps := htrans.walk.trans hcaptures.walk
    exact ⟨hkeeps.records, hkeeps.models, hkeeps.globals, hkeeps.walked, hkeeps.active⟩

end OpenADA.Pdk

import OpenADA.Pdk.Closure

/-! The closure of a profile: why a walk can fail, and what a resolved closure has read, walked
and collected. -/
namespace OpenADA.Pdk

open PyText

variable {source : Source}

/-- A refusal of a walk from `origin`: a ceiling, a cycle among the reachable views, or a fault
that a reachable view has on its own. -/
def Explained (source : Source) (origin : View) (fault : ClosureFault) : Prop :=
  fault = .closureOverLimit ∨ (∃ trail, fault = .cycle trail ∧ Cyclic source origin) ∨
    ∃ v, Relation.ReflTransGen (Edge source) origin v ∧ Faulty source v fault

theorem Explained.below {origin next : View} {fault : ClosureFault}
    (h : Explained source next fault) (hedge : Edge source origin next) :
    Explained source origin fault := by
  rcases h with h | ⟨trail, h, v, hv, hcycle⟩ | ⟨v, hv, hfault⟩
  · exact .inl h
  · exact .inr (.inl ⟨trail, h, v, .head hedge hv, hcycle⟩)
  · exact .inr (.inr ⟨v, .head hedge hv, hfault⟩)

theorem walkLine_error {recurse : Path → Option String → Form → Builder → Except ClosureFault Builder}
    {relative : Path} {requested : Option String} {state : Sections × Builder} {line : List Char}
    {fault : ClosureFault} (h : walkLine source recurse relative requested state line = .error fault) :
    viewLine source relative requested state.1 line = .error fault ∨
      ∃ tokens sections child name form, directiveTokens line = .ok tokens ∧
        sectionStep requested state.1 tokens = .ok (sections, true) ∧
        selectedChild source relative tokens = .ok (some (child, name, form)) ∧
        recurse child name form (scanNamespace state.2 tokens) = .error fault := by
  rcases Except.bind_eq_error.mp h with htokens | ⟨tokens, htokens, h⟩
  · left
    rw [viewLine, htokens]
    rfl
  rcases Except.bind_eq_error.mp h with hsections | ⟨⟨sections, active⟩, hsections, h⟩
  · left
    rw [viewLine, htokens, Except.ok_bind, hsections]
    rfl
  cases active with
  | false => cases h
  | true =>
    simp only [if_true] at h
    rcases Except.bind_eq_error.mp h with hchild | ⟨child?, hchild, h⟩
    · left
      rw [viewLine, htokens, Except.ok_bind, hsections, Except.ok_bind]
      simp only [if_true]
      rw [hchild]
      rfl
    · right
      cases child? with
      | none => cases h
      | some selected =>
        obtain ⟨child, name, form⟩ := selected
        rcases Except.bind_eq_error.mp h with hrun | ⟨_, _, h⟩
        · exact ⟨tokens, sections, child, name, form, htokens, hsections, hchild, hrun⟩
        · cases h

/-- Every refusal of a walk is explained. The active views lead to the walked one by edges. -/
theorem walk_error {levels : ℕ} {relative : Path} {requested : Option String} {form : Form}
    {b : Builder} {fault : ClosureFault} (hb : WalkReady source b)
    (hfile : relative ∈ b.transportWalked)
    (hstack : ∀ a ∈ b.activeViews,
      Relation.TransGen (Edge source) a (relative, requested.map casefold))
    (h : walk source levels relative requested form b = .error fault) :
    Explained source (relative, requested.map casefold) fault := by
  induction levels generalizing relative requested form b with
  | zero => exact .inl (Except.error.inj h).symm
  | succ levels ih =>
    obtain ⟨body, hget⟩ := hb.transport.captured relative hfile
    have hbody := hb.transport.faithful relative body hget
    rw [walk_captured hget] at h
    split_ifs at h with hactive hlimit hwalked
    · exact .inr (.inl ⟨_, (Except.error.inj h).symm, _, .refl, hstack _ hactive⟩)
    · exact .inl (Except.error.inj h).symm
    have hready : WalkReady source (entering source b relative requested form body) :=
      hb.entering hwalked
    have hfaulty : readView source relative requested body = .error fault →
        Explained source (relative, requested.map casefold) fault := fun hread =>
      .inr (.inr ⟨_, .refl, body, requested, hbody, rfl, hread⟩)
    rcases Except.bind_eq_error.mp h with hlines | ⟨⟨sections, last⟩, hlines, hend⟩
    · obtain ⟨done, line, rest, state, htext, hdone, hline⟩ := Except.foldlM_eq_error hlines
      have hprogress := walkLines_ok (walk_ok levels) hbody hready hfile htext hdone
      rcases walkLine_error hline with hplain | ⟨tokens, after, child, name, form', htokens,
        hsections, hchild, hrun⟩
      · apply hfaulty
        rw [readView, htext, Except.foldlM_error_of_prefix hprogress.plain hplain]
        rfl
      · obtain ⟨_, hactive'⟩ := sectionStep_ok hsections
        rw [hprogress.sections] at hactive'
        have hedge : Edge source (relative, requested.map casefold)
            (child, name.map casefold) := by
          have hactiveLine := activeLine_append.mpr (.inr ⟨htokens, hactive'.mp rfl⟩)
          refine ⟨body, tokens, child, name, form', hbody, ?_, hchild, rfl⟩
          rw [htext, List.append_cons]
          exact hactiveLine.extend
        have hbelow := hprogress.grown.ready.scanned tokens
        have hmem : child ∈ (scanNamespace state.2 tokens).transportWalked :=
          hbelow.transport.closed relative (hprogress.grown.transportWalked ▸ hfile) _
            hedge.transport
        refine (ih hbelow hmem ?_ hrun).below hedge
        intro a ha
        have hsame : state.2.activeViews = b.activeViews ++ [(relative, requested.map casefold)] :=
          hprogress.grown.active
        have hmember : a ∈ b.activeViews ++ [(relative, requested.map casefold)] := by
          rw [← hsame]
          exact ha
        rcases List.mem_append.mp hmember with ha | ha
        · exact (hstack a ha).tail hedge
        · rw [List.mem_singleton.mp ha]
          exact .single hedge
    · have hprogress := walkLines_ok (walk_ok levels) hbody hready hfile
        (List.append_nil _).symm hlines
      apply hfaulty
      rw [readView, hprogress.plain, Except.ok_bind]
      simp only at hend ⊢
      split_ifs at hend with hopen hfound
      · rw [if_pos hopen]
        exact congrArg _ (Except.error.inj hend)
      · rw [if_neg hopen, if_pos hfound]
        exact congrArg _ (Except.error.inj hend)

theorem walk_acyclic {levels : ℕ} {relative : Path} {requested : Option String} {form : Form}
    {b b' : Builder} (hb : WalkReady source b) (hfile : relative ∈ b.transportWalked)
    (h : walk source levels relative requested form b = .ok b') :
    ¬ Cyclic source (relative, requested.map casefold) := by
  obtain ⟨hgrown, _, hmem⟩ := walk_ok levels relative requested form b b' hb hfile h
  rintro ⟨v, hv, hcycle⟩
  have hwalked := hgrown.ready.ordered.reach hmem hv
  exact hgrown.ready.ordered.acyclic hgrown.ready.nodup hwalked hcycle

section Local

def Local (fault : ClosureFault) : Prop := ∀ trail, fault ≠ .cycle trail

theorem childPath_local {relative : Path} {locator : String} {fault : ClosureFault}
    (h : childPath source relative locator = .error fault) : Local fault := by
  intro trail
  rintro rfl
  unfold childPath normalizedSourcePath at h
  split at h
  · cases h
  · simp only at h
    split at h
    · cases hresolve : source.tree.resolve (absoluteParts
        (source.root ++ relative.dropLast ++ locatorParts locator)) with
      | none =>
        rw [hresolve] at h
        cases h
      | some resolved =>
        rw [hresolve] at h
        simp only at h
        split_ifs at h
        all_goals cases h
    · cases h

theorem viewLine_local {relative : Path} {requested : Option String} {sections : Sections}
    {line : List Char} {fault : ClosureFault}
    (h : viewLine source relative requested sections line = .error fault) : Local fault := by
  rcases Except.bind_eq_error.mp h with htokens | ⟨tokens, _, h⟩
  · unfold directiveTokens at htokens
    simp only at htokens
    split_ifs at htokens
    split at htokens
    · cases htokens
    · rintro trail rfl
      cases htokens
  rcases Except.bind_eq_error.mp h with hsections | ⟨⟨after, active⟩, _, h⟩
  · rintro trail rfl
    unfold sectionStep at hsections
    split_ifs at hsections
    · cases hsections
    · split at hsections
      · cases hsections
      · split_ifs at hsections
        cases hsections
      · cases hsections
  cases active with
  | false => cases h
  | true =>
    simp only [if_true] at h
    rcases Except.bind_eq_error.mp h with hchild | ⟨_, _, h⟩
    · unfold selectedChild at hchild
      split_ifs at hchild
      all_goals
        split at hchild
        · rcases Except.bind_eq_error.mp hchild with hpath | ⟨_, _, hout⟩
          · exact childPath_local hpath
          · cases hout
        · rintro trail rfl
          cases hchild
    · cases h

theorem Faulty.local {v : View} {fault : ClosureFault} (h : Faulty source v fault) :
    Local fault := by
  obtain ⟨body, requested, _, _, hread⟩ := h
  rcases Except.bind_eq_error.mp hread with hlines | ⟨sections, _, hend⟩
  · obtain ⟨_, line, _, _, _, _, hline⟩ := Except.foldlM_eq_error hlines
    exact viewLine_local hline
  · rintro trail rfl
    split_ifs at hend
    all_goals cases hend

end Local

section Entries

variable {corner : String} {deviceModels : List String}

def EntryView (source : Source) (corner : String) (entry : LibraryEntry) (v : View) : Prop :=
  ∃ relative, entryPath source corner entry = .ok relative ∧
    v = (relative, (entrySection corner entry).map casefold)

def Reachable (source : Source) (corner : String) (entries : List LibraryEntry) (v : View) : Prop :=
  ∃ entry ∈ entries, ∃ origin, EntryView source corner entry origin ∧
    Relation.ReflTransGen (Edge source) origin v

structure Resolved (source : Source) (corner : String) (deviceModels : List String)
    (done : List LibraryEntry) (b : Builder) : Prop where
  ready : WalkReady source b
  idle : b.activeViews = []
  walked : ∀ v, v ∈ b.walkedViews ↔ Reachable source corner done v
  names : ∀ kind name, name ∈ b.names kind ↔
    name ∈ (Builder.initial deviceModels).names kind ∨
      ∃ v, Reachable source corner done v ∧ Declares source v kind name

theorem resolved_initial : Resolved source corner deviceModels [] (.initial deviceModels) where
  ready :=
    { transport := ⟨fun path body h => by simp [Builder.initial, InsertionDict.get?_empty] at h,
        rfl, fun f hf => absurd hf List.not_mem_nil, fun f hf => absurd hf List.not_mem_nil⟩
      ordered := .nil
      nodup := List.nodup_nil
      apart := fun v hv => absurd hv List.not_mem_nil }
  idle := rfl
  walked v := by simp [Builder.initial, Reachable]
  names kind name := by simp [Reachable]

theorem reachable_append {done : List LibraryEntry} {entry : LibraryEntry} {relative : Path}
    (hpath : entryPath source corner entry = .ok relative) {v : View} :
    Reachable source corner (done ++ [entry]) v ↔ Reachable source corner done v ∨
      Relation.ReflTransGen (Edge source)
        (relative, (entrySection corner entry).map casefold) v := by
  constructor
  · rintro ⟨other, hother, origin, hview, hreach⟩
    rcases List.mem_append.mp hother with hother | hother
    · exact .inl ⟨other, hother, origin, hview, hreach⟩
    · obtain rfl := List.mem_singleton.mp hother
      obtain ⟨found, hfound, rfl⟩ := hview
      obtain rfl := Except.ok.inj (hpath.symm.trans hfound)
      exact .inr hreach
  · rintro (⟨other, hother, hrest⟩ | hreach)
    · exact ⟨other, List.mem_append_left _ hother, hrest⟩
    · exact ⟨entry, by simp, _, ⟨relative, hpath, rfl⟩, hreach⟩

/-- The transport closure of the next entry leaves the walk where it was. -/
theorem Resolved.transported {done : List LibraryEntry} {b c : Builder} {relative : Path}
    (hb : Resolved source corner deviceModels done b)
    (h : transportEntry source relative b = .ok c) :
    WalkReady source c ∧ relative ∈ c.transportWalked ∧ KeepsWalk b c := by
  obtain ⟨hclosed, hmem, hkeeps⟩ := transportEntry_ok hb.ready.transport h
  refine ⟨⟨hclosed, ?_, ?_, ?_⟩, hmem, hkeeps⟩
  · rw [hkeeps.walked]
    exact hb.ready.ordered
  · rw [hkeeps.walked]
    exact hb.ready.nodup
  · rw [hkeeps.walked, hkeeps.active]
    exact hb.ready.apart

theorem Resolved.entry {done : List LibraryEntry} {entry : LibraryEntry} {b b' : Builder}
    (hb : Resolved source corner deviceModels done b)
    (h : resolveEntry source corner b entry = .ok b') :
    Resolved source corner deviceModels (done ++ [entry]) b' := by
  obtain ⟨relative, hpath, h⟩ := Except.bind_eq_ok.mp h
  obtain ⟨c, htransport, hwalk⟩ := Except.bind_eq_ok.mp h
  obtain ⟨hready, hfile, hkeeps⟩ := hb.transported htransport
  obtain ⟨hgrown, hnames, hmem⟩ := walk_ok _ _ _ _ _ _ hready hfile hwalk
  have hwalked : ∀ v, v ∈ b'.walkedViews ↔ Reachable source corner (done ++ [entry]) v := by
    intro v
    rw [reachable_append hpath, ← hb.walked v, ← hkeeps.walked]
    constructor
    · intro hv
      by_cases hold : v ∈ c.walkedViews
      · exact .inl hold
      · exact .inr (hgrown.reached v hv hold)
    · rintro (hv | hv)
      · exact hgrown.walked hv
      · exact hgrown.ready.ordered.reach hmem hv
  refine ⟨hgrown.ready, hgrown.active.trans (hkeeps.active.trans hb.idle), hwalked, ?_⟩
  intro kind name
  rw [hnames kind name, hkeeps.names kind, hb.names kind name, or_assoc]
  apply or_congr_right
  constructor
  · rintro (⟨v, hv, hd⟩ | ⟨v, hv, _, hd⟩)
    · exact ⟨v, (reachable_append hpath).mpr (.inl hv), hd⟩
    · exact ⟨v, (hwalked v).mp hv, hd⟩
  · rintro ⟨v, hv, hd⟩
    by_cases hold : v ∈ c.walkedViews
    · exact .inl ⟨v, (hb.walked v).mp (hkeeps.walked ▸ hold), hd⟩
    · exact .inr ⟨v, (hwalked v).mpr hv, hold, hd⟩

theorem resolveLibraries_resolved {entries : List LibraryEntry} {b : Builder}
    (h : resolveLibraries source corner deviceModels entries = .ok b) :
    Resolved source corner deviceModels entries b :=
  Except.foldlM_spec (Resolved source corner deviceModels)
    (fun _ _ _ _ hinv hstep => hinv.entry hstep) resolved_initial h

end Entries

/-- The closure of a profile. Once resolved, the reachable views are walked once each, and the
namespace holds the device models of the profile and what active lines of these views declare.
Each entry's walk reads files of its own transport closure only, captured before; it reports a
cycle only where a reachable view lies on one, and wherever one does, unless a ceiling or a fault
of a reachable view stops it first. -/
theorem closure_sound (source : Source) (corner : String) (deviceModels : List String)
    (entries : List LibraryEntry) :
    (∀ final, resolveLibraries source corner deviceModels entries = .ok final →
      final.walkedViews.Nodup ∧
      (∀ v, v ∈ final.walkedViews ↔ Reachable source corner entries v) ∧
      (∀ name, name ∈ final.namespaceModels ↔ (∃ model ∈ deviceModels, casefold model = name) ∨
        ∃ v, Reachable source corner entries v ∧ Declares source v .model name) ∧
      ∀ name, name ∈ final.namespaceGlobals ↔
        ∃ v, Reachable source corner entries v ∧ Declares source v .global name) ∧
    ∀ done entry rest before relative transported, entries = done ++ entry :: rest →
      resolveLibraries source corner deviceModels done = .ok before →
      entryPath source corner entry = .ok relative →
      transportEntry source relative before = .ok transported →
      (∀ after, walkEntry source corner entry relative transported = .ok after →
        after.captured = transported.captured ∧
        (∃ visited, after.closureRecords = transported.closureRecords ++ visited ∧
          ∀ r ∈ visited, r.relativePath ∈ transported.captured.keys ∧
            Relation.ReflTransGen (TransportEdge source) relative r.relativePath) ∧
        ¬ Cyclic source (relative, (entrySection corner entry).map casefold)) ∧
      (∀ trail, walkEntry source corner entry relative transported = .error (.cycle trail) →
        Cyclic source (relative, (entrySection corner entry).map casefold)) ∧
      (Cyclic source (relative, (entrySection corner entry).map casefold) →
        ∃ fault, walkEntry source corner entry relative transported = .error fault ∧
          ((∃ trail, fault = .cycle trail) ∨ fault = .closureOverLimit ∨
            ∃ v, Relation.ReflTransGen (Edge source)
              (relative, (entrySection corner entry).map casefold) v ∧ Faulty source v fault)) := by
  constructor
  · intro final h
    have hres := resolveLibraries_resolved h
    refine ⟨hres.ready.nodup, hres.walked, fun name => ?_, fun name => ?_⟩
    · rw [show final.namespaceModels = final.names .model from rfl, hres.names .model name]
      apply or_congr_left
      simp [Builder.initial, Builder.names]
    · rw [show final.namespaceGlobals = final.names .global from rfl, hres.names .global name]
      simp [Builder.initial, Builder.names]
  · intro done entry rest before relative transported _ hbefore hpath htransport
    have hres := resolveLibraries_resolved hbefore
    obtain ⟨hready, hfile, hkeeps⟩ := hres.transported htransport
    have hstack : ∀ a ∈ transported.activeViews, Relation.TransGen (Edge source) a
        (relative, (entrySection corner entry).map casefold) := by
      intro a ha
      rw [hkeeps.active, hres.idle] at ha
      exact absurd ha List.not_mem_nil
    refine ⟨fun after h => ?_, fun trail h => ?_, fun hcyclic => ?_⟩
    · obtain ⟨hgrown, _, _⟩ := walk_ok _ _ _ _ _ _ hready hfile h
      obtain ⟨visited, hvisited, hreach⟩ := hgrown.records
      refine ⟨hgrown.captured, ⟨visited, hvisited, fun r hr => ⟨?_, hreach r hr⟩⟩,
        walk_acyclic hready hfile h⟩
      have hwalked := hready.transport.reach hfile (hreach r hr)
      obtain ⟨body, hbody⟩ := hready.transport.captured _ hwalked
      exact InsertionDict.mem_keys_iff.mpr ⟨body, hbody⟩
    · rcases walk_error hready hfile hstack h with hlimit | ⟨_, _, hcyclic⟩ | ⟨v, _, hfault⟩
      · cases hlimit
      · exact hcyclic
      · exact absurd rfl (hfault.local trail)
    · cases hwalk : walkEntry source corner entry relative transported with
      | ok after => exact absurd hcyclic (walk_acyclic hready hfile hwalk)
      | error fault =>
        refine ⟨fault, rfl, ?_⟩
        rcases walk_error hready hfile hstack hwalk with hlimit | ⟨trail, htrail, _⟩ | hfault
        · exact .inr (.inl hlimit)
        · exact .inl ⟨trail, htrail⟩
        · exact .inr (.inr hfault)

section Specimens

def plainSource (files : List (Path × String)) : Source where
  tree :=
    { resolve := fun path => some path
      capture := fun path => (files.lookup path).map fun text =>
        text.toList.map fun c => UInt8.ofNat c.toNat }
  root := ["pdk"]
  sha256 _ := ""

/-- A library whose corner section selects another section of the same file. -/
def coreSource : Source := plainSource
  [(["pdk", "top.lib"],
    ".include base.inc\n.lib tt\n.lib 'top.lib' core\n.endl\n.lib core\n.model nch nmos\n.endl\n"),
   (["pdk", "base.inc"], ".global vdd 0\n")]

def coreEntry : LibraryEntry := ⟨"top.lib", .lib, some "\x7bcorner\x7d", []⟩

theorem core_resolves :
    (resolveLibraries coreSource "tt" ["Nfet"] [coreEntry]).toOption.isSome = true ∧
      ((entryPath coreSource "tt" coreEntry).bind fun relative =>
        transportEntry coreSource relative (.initial ["Nfet"])).toOption.isSome = true := by
  decide +kernel

theorem core_closure : ∃ final relative transported,
    resolveLibraries coreSource "tt" ["Nfet"] [coreEntry] = .ok final ∧
    entryPath coreSource "tt" coreEntry = .ok relative ∧
    transportEntry coreSource relative (.initial ["Nfet"]) = .ok transported ∧
    final.walkedViews.Nodup ∧
    (∀ v, v ∈ final.walkedViews ↔ Reachable coreSource "tt" [coreEntry] v) ∧
    ∀ trail, walkEntry coreSource "tt" coreEntry relative transported = .error (.cycle trail) →
      Cyclic coreSource (relative, (entrySection "tt" coreEntry).map casefold) := by
  obtain ⟨final, hfinal⟩ := Except.exists_ok_of_isSome core_resolves.1
  obtain ⟨transported, h⟩ := Except.exists_ok_of_isSome core_resolves.2
  obtain ⟨relative, hpath, htransport⟩ := Except.bind_eq_ok.mp h
  obtain ⟨hresolved, hwalks⟩ := closure_sound coreSource "tt" ["Nfet"] [coreEntry]
  obtain ⟨hnodup, hreachable, _⟩ := hresolved final hfinal
  obtain ⟨_, hcycle, _⟩ := hwalks [] coreEntry [] _ relative transported rfl rfl hpath htransport
  exact ⟨final, relative, transported, hfinal, hpath, htransport, hnodup, hreachable, hcycle⟩

/-- An empty library file, and the profile of a device model that no file declares. -/
theorem undeclared_model_collected : ¬ ∀ (source : Source) (corner : String)
    (deviceModels : List String) (entries : List LibraryEntry) (final : Builder),
    resolveLibraries source corner deviceModels entries = .ok final →
    ∀ name, name ∈ final.namespaceModels ↔
      ∃ v, Reachable source corner entries v ∧ Declares source v .model name := by
  intro hclaim
  have hresolves : (resolveLibraries (plainSource [(["pdk", "a.lib"], "")]) "tt" ["nfet"]
      [⟨"a.lib", .include, none, []⟩]).toOption.isSome = true := by decide +kernel
  obtain ⟨final, hfinal⟩ := Except.exists_ok_of_isSome hresolves
  have hnames := (resolveLibraries_resolved hfinal).names .model "nfet"
  have hmodel : "nfet" ∈ final.namespaceModels := hnames.mpr (.inl (by decide +kernel))
  obtain ⟨v, _, body, tokens, hbody, ⟨before, line, after, hsplit, _⟩, _⟩ :=
    (hclaim _ _ _ _ final hfinal "nfet").mp hmodel
  have hempty : body = [] := by
    simp only [plainSource, List.lookup_cons, List.lookup_nil] at hbody
    split at hbody
    · simpa using hbody.symm
    · cases hbody
  rw [hempty] at hsplit
  exact absurd hsplit (by simp [textLines, splitLines, breakLines])

end Specimens

end OpenADA.Pdk

import OpenADA.Library.CompletionSearch
import OpenADA.Pdk.Transport

/-! The walk of the selected sections: it reads captured files only, walks every reachable view
once, collects the names of exactly these views and reports the cycles among them. -/
namespace OpenADA.Pdk

open PyText

variable {source : Source}

/-- What the walk needs of the builder: the transport closure of its files, and the views walked
so far in completion order, apart from the active ones. -/
structure WalkReady (source : Source) (b : Builder) : Prop where
  transport : TransportClosed source b
  ordered : CompletionOrder.Ordered (Edge source) b.walkedViews
  nodup : b.walkedViews.Nodup
  apart : ∀ v ∈ b.walkedViews, v ∉ b.activeViews

/-- What a part of the walk does below the view `origin`, its names aside. -/
structure Grown (source : Source) (origin : View) (b b' : Builder) : Prop where
  ready : WalkReady source b'
  captured : b'.captured = b.captured
  transportWalked : b'.transportWalked = b.transportWalked
  active : b'.activeViews = b.activeViews
  walked : b.walkedViews ⊆ b'.walkedViews
  reached : ∀ v ∈ b'.walkedViews, v ∉ b.walkedViews →
    Relation.ReflTransGen (Edge source) origin v
  records : ∃ visited, b'.closureRecords = b.closureRecords ++ visited ∧ ∀ r ∈ visited,
    Relation.ReflTransGen (TransportEdge source) origin.1 r.relativePath

def Collects (source : Source) (b b' : Builder) : Prop :=
  ∀ kind name, name ∈ b'.names kind ↔ name ∈ b.names kind ∨
    ∃ v ∈ b'.walkedViews, v ∉ b.walkedViews ∧ Declares source v kind name

theorem Grown.refl {origin : View} {b : Builder} (hb : WalkReady source b) :
    Grown source origin b b where
  ready := hb
  captured := rfl
  transportWalked := rfl
  active := rfl
  walked := List.Subset.refl _
  reached _ hv hn := absurd hv hn
  records := ⟨[], by simp, by simp⟩

theorem Grown.trans {origin next : View} {a b c : Builder} (hab : Grown source origin a b)
    (hbc : Grown source next b c) (hview : Relation.ReflTransGen (Edge source) origin next)
    (hfile : Relation.ReflTransGen (TransportEdge source) origin.1 next.1) :
    Grown source origin a c where
  ready := hbc.ready
  captured := hbc.captured.trans hab.captured
  transportWalked := hbc.transportWalked.trans hab.transportWalked
  active := hbc.active.trans hab.active
  walked := List.Subset.trans hab.walked hbc.walked
  reached := by
    intro v hv hn
    by_cases hmid : v ∈ b.walkedViews
    · exact hab.reached v hmid hn
    · exact hview.trans (hbc.reached v hv hmid)
  records := by
    obtain ⟨first, hfirst, hreach⟩ := hab.records
    obtain ⟨second, hsecond, hreach'⟩ := hbc.records
    refine ⟨first ++ second, by rw [hsecond, hfirst, List.append_assoc], fun r hr => ?_⟩
    rcases List.mem_append.mp hr with hr | hr
    · exact hreach r hr
    · exact hfile.trans (hreach' r hr)

theorem fresh_append {origin : View} {a b c : Builder} (hab : Grown source origin a b)
    (hbc : b.walkedViews ⊆ c.walkedViews) {p : View → Prop} :
    (∃ v ∈ c.walkedViews, v ∉ a.walkedViews ∧ p v) ↔
      (∃ v ∈ b.walkedViews, v ∉ a.walkedViews ∧ p v) ∨
        ∃ v ∈ c.walkedViews, v ∉ b.walkedViews ∧ p v := by
  constructor
  · rintro ⟨v, hv, hn, hp⟩
    by_cases hmid : v ∈ b.walkedViews
    · exact .inl ⟨v, hmid, hn, hp⟩
    · exact .inr ⟨v, hv, hmid, hp⟩
  · rintro (⟨v, hv, hn, hp⟩ | ⟨v, hv, hn, hp⟩)
    · exact ⟨v, hbc hv, hn, hp⟩
    · exact ⟨v, hv, fun h => hn (hab.walked h), hp⟩

theorem activeLine_append {selected : Option String} {done : List (List Char)} {line : List Char}
    {tokens : List String} :
    ActiveLine selected (done ++ [line]) tokens ↔ ActiveLine selected done tokens ∨
      directiveTokens line = .ok tokens ∧ ¬ Delimiter tokens ∧
        ∀ current, openSection done = some current → selected = some (casefold current) := by
  constructor
  · rintro ⟨before, active, after, hsplit, hrest⟩
    rcases List.eq_nil_or_concat after with rfl | ⟨front, last, rfl⟩
    · obtain ⟨rfl, hlast⟩ := List.append_inj' hsplit rfl
      obtain rfl := List.singleton_inj.mp hlast
      exact .inr hrest
    · have hparts : done ++ [line] = (before ++ active :: front) ++ [last] := by
        rw [hsplit]
        simp
      obtain ⟨hdone, _⟩ := List.append_inj' hparts rfl
      exact .inl ⟨before, active, front, hdone, hrest⟩
  · rintro (⟨before, active, after, rfl, hrest⟩ | hrest)
    · exact ⟨before, active, after ++ [line], by simp, hrest⟩
    · exact ⟨done, line, [], rfl, hrest⟩

theorem ActiveLine.extend {selected : Option String} {done rest : List (List Char)}
    {tokens : List String} (h : ActiveLine selected done tokens) :
    ActiveLine selected (done ++ rest) tokens := by
  obtain ⟨before, line, after, rfl, hline⟩ := h
  exact ⟨before, line, after ++ rest, by simp, hline⟩

/-- What the lines read so far have done to the builder that entered the view. -/
structure Progress (source : Source) (view : View) (requested : Option String)
    (entered : Builder) (done : List (List Char)) (state : Sections × Builder) : Prop where
  grown : Grown source view entered state.2
  sections : state.1.current = openSection done
  plain : done.foldlM (viewLine source view.1 requested) ⟨none, requested.isNone⟩ = .ok state.1
  names : ∀ kind name, name ∈ state.2.names kind ↔ name ∈ entered.names kind ∨
    (∃ v ∈ state.2.walkedViews, v ∉ entered.walkedViews ∧ Declares source v kind name) ∨
    ∃ tokens, ActiveLine view.2 done tokens ∧ name ∈ lineNames tokens kind
  selected : ∀ tokens child name form, ActiveLine view.2 done tokens →
    selectedChild source view.1 tokens = .ok (some (child, name, form)) →
    (child, name.map casefold) ∈ state.2.walkedViews

def Walks (source : Source)
    (recurse : Path → Option String → Form → Builder → Except ClosureFault Builder) : Prop :=
  ∀ relative requested form b b', WalkReady source b → relative ∈ b.transportWalked →
    recurse relative requested form b = .ok b' →
    Grown source (relative, requested.map casefold) b b' ∧ Collects source b b' ∧
      (relative, requested.map casefold) ∈ b'.walkedViews

section Lines

variable {recurse : Path → Option String → Form → Builder → Except ClosureFault Builder}
  {relative : Path} {requested : Option String} {body : Body} {entered : Builder}

theorem WalkReady.scanned {b : Builder} (hb : WalkReady source b) (tokens : List String) :
    WalkReady source (scanNamespace b tokens) :=
  ⟨⟨hb.transport.faithful, hb.transport.idle, hb.transport.captured, hb.transport.closed⟩,
    hb.ordered, hb.nodup, hb.apart⟩

theorem walkLine_ok (hrec : Walks source recurse)
    (hbody : source.tree.capture (source.root ++ relative) = some body)
    (hfile : relative ∈ entered.transportWalked) {done rest : List (List Char)}
    {line : List Char} (htext : textLines body = done ++ line :: rest)
    {state next : Sections × Builder}
    (hinv : Progress source (relative, requested.map casefold) requested entered done state)
    (h : walkLine source recurse relative requested state line = .ok next) :
    Progress source (relative, requested.map casefold) requested entered (done ++ [line])
      next := by
  obtain ⟨sections, b⟩ := state
  obtain ⟨tokens, htokens, h⟩ := Except.bind_eq_ok.mp h
  obtain ⟨⟨after, active⟩, hsections, h⟩ := Except.bind_eq_ok.mp h
  obtain ⟨hcurrent, hactive⟩ := sectionStep_ok hsections
  have hopen : after.current = openSection (done ++ [line]) := by
    rw [hcurrent, openSection_append, htokens, hinv.sections]
    rfl
  rw [hinv.sections] at hactive
  -- the line as the read of the view on its own sees it
  have hplain : ∀ s : Sections, viewLine source relative requested sections line = .ok s →
      (done ++ [line]).foldlM (viewLine source relative requested) ⟨none, requested.isNone⟩ =
        .ok s := by
    intro s hs
    rw [List.foldlM_append, hinv.plain, Except.ok_bind, List.foldlM_cons, hs]
    rfl
  cases active with
  | false =>
    obtain rfl := Except.ok.inj h
    have hinactive : ∀ tokens', ActiveLine (requested.map casefold) (done ++ [line]) tokens' ↔
        ActiveLine (requested.map casefold) done tokens' := by
      intro tokens'
      rw [activeLine_append, or_iff_left]
      rintro ⟨htokens', hrest⟩
      obtain rfl := Except.ok.inj (htokens.symm.trans htokens')
      exact absurd (hactive.mpr hrest) Bool.false_ne_true
    refine ⟨hinv.grown, hopen, hplain after ?_, ?_, ?_⟩
    · rw [viewLine, htokens, Except.ok_bind, hsections]
      rfl
    · intro kind name
      simp only [hinactive]
      exact hinv.names kind name
    · intro tokens' child name form hline
      exact hinv.selected tokens' child name form ((hinactive tokens').mp hline)
  | true =>
    have hline : ActiveLine (requested.map casefold) (done ++ [line]) tokens :=
      activeLine_append.mpr (.inr ⟨htokens, hactive.mp rfl⟩)
    have hlines : ∀ tokens', ActiveLine (requested.map casefold) (done ++ [line]) tokens' ↔
        ActiveLine (requested.map casefold) done tokens' ∨ tokens' = tokens := by
      intro tokens'
      rw [activeLine_append]
      refine or_congr_right ⟨fun h => Except.ok.inj (h.1.symm.trans htokens), ?_⟩
      rintro rfl
      exact ⟨htokens, hactive.mp rfl⟩
    have hscanned : ∀ kind name, name ∈ (scanNamespace b tokens).names kind ↔
        name ∈ entered.names kind ∨ (∃ v ∈ b.walkedViews, v ∉ entered.walkedViews ∧
          Declares source v kind name) ∨ ∃ tokens',
          ActiveLine (requested.map casefold) (done ++ [line]) tokens' ∧
            name ∈ lineNames tokens' kind := by
      intro kind name
      rw [scanNamespace_names, Finset.mem_union, hinv.names kind name]
      simp only [hlines, or_and_right, exists_or, exists_eq_left, or_assoc]
    have hready := hinv.grown.ready.scanned tokens
    have hgrown : Grown source (relative, requested.map casefold) entered
        (scanNamespace b tokens) :=
      ⟨hready, hinv.grown.captured, hinv.grown.transportWalked, hinv.grown.active,
        hinv.grown.walked, hinv.grown.reached, hinv.grown.records⟩
    simp only [if_true] at h
    obtain ⟨child?, hchild, h⟩ := Except.bind_eq_ok.mp h
    have hview : viewLine source relative requested sections line = .ok after := by
      rw [viewLine, htokens, Except.ok_bind, hsections, Except.ok_bind]
      simp only [if_true]
      rw [hchild]
      rfl
    cases child? with
    | none =>
      obtain rfl := Except.ok.inj h
      refine ⟨hgrown, hopen, hplain after hview, hscanned, ?_⟩
      intro tokens' child name form hactive' hsel
      rcases (hlines tokens').mp hactive' with hold | rfl
      · exact hinv.selected tokens' child name form hold hsel
      · rw [hchild] at hsel
        cases hsel
    | some selected =>
      obtain ⟨child, sectionName?, form⟩ := selected
      obtain ⟨out, hout, h⟩ := Except.bind_eq_ok.mp h
      obtain rfl := Except.ok.inj h
      have hedge : Edge source (relative, requested.map casefold)
          (child, sectionName?.map casefold) := by
        refine ⟨body, tokens, child, sectionName?, form, hbody, ?_, hchild, rfl⟩
        rw [htext, List.append_cons]
        exact hline.extend
      have hmem : child ∈ (scanNamespace b tokens).transportWalked := by
        apply hready.transport.closed relative
        · exact hinv.grown.transportWalked ▸ hfile
        · exact hedge.transport
      obtain ⟨hbelow, hnames, hwalked⟩ := hrec child sectionName? form _ out hready hmem hout
      refine ⟨hgrown.trans hbelow (.single hedge) (.single hedge.transport), hopen,
        hplain after hview, ?_, ?_⟩
      · intro kind name
        rw [hnames kind name, hscanned kind name, fresh_append hgrown hbelow.walked]
        simp only [scanNamespace_walkedViews, or_comm, or_assoc]
      · intro tokens' child' name form' hactive' hsel
        rcases (hlines tokens').mp hactive' with hold | rfl
        · exact hbelow.walked (hinv.selected tokens' child' name form' hold hsel)
        · obtain ⟨rfl, heq⟩ := Prod.mk.inj (Option.some.inj (Except.ok.inj (hchild.symm.trans hsel)))
          obtain ⟨rfl, _⟩ := Prod.mk.inj heq
          exact hwalked

theorem walkLines_ok (hrec : Walks source recurse)
    (hbody : source.tree.capture (source.root ++ relative) = some body)
    (hready : WalkReady source entered) (hfile : relative ∈ entered.transportWalked)
    {lines rest : List (List Char)} (htext : textLines body = lines ++ rest)
    {state : Sections × Builder}
    (h : lines.foldlM (walkLine source recurse relative requested)
      (⟨none, requested.isNone⟩, entered) = .ok state) :
    Progress source (relative, requested.map casefold) requested entered lines state := by
  refine Except.foldlM_invariant (Progress source (relative, requested.map casefold) requested
    entered) (fun _ => True) (fun _ _ _ _ _ => trivial) ?_ ?_ h trivial
  · intro done line after s s' hsplit hinv hstep _
    have htext' : textLines body = done ++ line :: (after ++ rest) := by
      rw [htext, hsplit, List.append_assoc, List.cons_append]
    exact walkLine_ok hrec hbody hfile htext' hinv hstep
  · refine ⟨.refl hready, rfl, rfl, fun kind name => ?_, ?_⟩
    · have hfresh : ¬ ∃ v ∈ entered.walkedViews, v ∉ entered.walkedViews ∧
          Declares source v kind name := fun ⟨_, hv, hn, _⟩ => hn hv
      have hnone : ¬ ∃ tokens, ActiveLine (requested.map casefold) [] tokens ∧
          name ∈ lineNames tokens kind := by
        rintro ⟨tokens, ⟨before, line, after, hnil, _⟩, _⟩
        exact absurd hnil (by simp)
      simp only [hfresh, hnone, or_false]
    · rintro tokens child name form ⟨before, line, after, hnil, _⟩
      exact absurd hnil (by simp)

end Lines

theorem captureMaterial_captured {b : Builder} {relative : Path} {body : Body}
    (h : b.captured.get? relative = some body) (role : MaterialRole) :
    captureMaterial source b relative role =
      .ok (body, { b with roles := b.roles.set relative (ranked (b.roles.get? relative) role) }) := by
  unfold captureMaterial capture
  rw [h]
  rfl

section Walk

variable {relative : Path} {requested : Option String} {form : Form} {b : Builder} {body : Body}

def recorded (source : Source) (b : Builder) (relative : Path) (requested : Option String)
    (form : Form) (body : Body) : Builder :=
  { b with
    roles := b.roles.set relative (ranked (b.roles.get? relative) .transitiveLibrary)
    closureRecords := b.closureRecords ++
      [⟨b.closureRecords.length, form, relative, requested, body.length, source.sha256 body⟩] }

def entering (source : Source) (b : Builder) (relative : Path) (requested : Option String)
    (form : Form) (body : Body) : Builder :=
  { recorded source b relative requested form body with
    activeViews := b.activeViews ++ [(relative, requested.map casefold)] }

def leaving (view : View) (b : Builder) : Builder :=
  { b with
    walkedViews := b.walkedViews ++ [view]
    activeViews := b.activeViews.dropLast }

theorem walk_captured {levels : ℕ} (hbody : b.captured.get? relative = some body) :
    walk source (levels + 1) relative requested form b =
      if (relative, requested.map casefold) ∈ b.activeViews then
        .error (.cycle (b.activeViews ++ [(relative, requested.map casefold)]))
      else if b.closureRecords.length ≥ maxClosureEdges then .error .closureOverLimit
      else if (relative, requested.map casefold) ∈ b.walkedViews then
        .ok (recorded source b relative requested form body)
      else (do
        let (sections, last) ← (textLines body).foldlM
          (walkLine source (walk source levels) relative requested)
          (⟨none, requested.isNone⟩, entering source b relative requested form body)
        if sections.current ≠ none then .error .sectionInvalid
        else if ¬ sections.found then .error .sectionMissing
        else .ok (leaving (relative, requested.map casefold) last)) := by
  rw [walk]
  simp only [captureMaterial_captured hbody, Except.ok_bind]
  rfl

theorem WalkReady.recorded_grown (hb : WalkReady source b) :
    Grown source (relative, requested.map casefold) b
      (recorded source b relative requested form body) where
  ready := ⟨⟨hb.transport.faithful, hb.transport.idle, hb.transport.captured,
    hb.transport.closed⟩, hb.ordered, hb.nodup, hb.apart⟩
  captured := rfl
  transportWalked := rfl
  active := rfl
  walked := List.Subset.refl _
  reached _ hv hn := absurd hv hn
  records := ⟨_, rfl, fun r hr => by rw [List.mem_singleton.mp hr]⟩

theorem WalkReady.entering (hb : WalkReady source b)
    (hwalked : (relative, requested.map casefold) ∉ b.walkedViews) :
    WalkReady source (entering source b relative requested form body) where
  transport := ⟨hb.transport.faithful, hb.transport.idle, hb.transport.captured,
    hb.transport.closed⟩
  ordered := hb.ordered
  nodup := hb.nodup
  apart := by
    intro v hv hmem
    rcases List.mem_append.mp hmem with hmem | hmem
    · exact hb.apart v hv hmem
    · exact hwalked (List.mem_singleton.mp hmem ▸ hv)

theorem Edge.active {view w : View} (h : Edge source view w)
    (hbody : source.tree.capture (source.root ++ view.1) = some body) :
    ∃ tokens child name form, ActiveLine view.2 (textLines body) tokens ∧
      selectedChild source view.1 tokens = .ok (some (child, name, form)) ∧
      w = (child, name.map casefold) := by
  obtain ⟨other, tokens, child, name, form, hother, hrest⟩ := h
  obtain rfl := Option.some.inj (hother.symm.trans hbody)
  exact ⟨tokens, child, name, form, hrest⟩

theorem declares_iff_active {view : View} {kind : NameKind} {name : String}
    (hbody : source.tree.capture (source.root ++ view.1) = some body) :
    Declares source view kind name ↔
      ∃ tokens, ActiveLine view.2 (textLines body) tokens ∧ name ∈ lineNames tokens kind := by
  constructor
  · rintro ⟨other, tokens, hother, hrest⟩
    obtain rfl := Option.some.inj (hother.symm.trans hbody)
    exact ⟨tokens, hrest⟩
  · rintro ⟨tokens, hrest⟩
    exact ⟨body, tokens, hbody, hrest⟩

theorem Progress.complete (hb : WalkReady source b)
    (hbody : source.tree.capture (source.root ++ relative) = some body)
    (hactive : (relative, requested.map casefold) ∉ b.activeViews)
    {state : Sections × Builder}
    (h : Progress source (relative, requested.map casefold) requested
      (entering source b relative requested form body) (textLines body) state) :
    Grown source (relative, requested.map casefold) b
        (leaving (relative, requested.map casefold) state.2) ∧
      Collects source b (leaving (relative, requested.map casefold) state.2) ∧
      (relative, requested.map casefold) ∈
        (leaving (relative, requested.map casefold) state.2).walkedViews := by
  set view : View := (relative, requested.map casefold)
  set last := leaving view state.2
  have hgrown := h.grown
  have hstack : state.2.activeViews = b.activeViews ++ [view] := hgrown.active
  have hnew : view ∉ state.2.walkedViews := by
    intro hmem
    apply hgrown.ready.apart view hmem
    rw [hstack]
    simp
  have hself : view ∈ last.walkedViews := List.mem_append_right _ (List.mem_singleton_self view)
  have hpop : last.activeViews = b.activeViews := by
    show state.2.activeViews.dropLast = b.activeViews
    rw [hstack, List.dropLast_concat]
  have hfresh : view ∉ b.walkedViews := fun hmem => hnew (hgrown.walked hmem)
  refine ⟨⟨⟨?_, ?_, ?_, ?_⟩, hgrown.captured, hgrown.transportWalked, hpop, ?_, ?_, ?_⟩, ?_, hself⟩
  · exact ⟨hgrown.ready.transport.faithful, hgrown.ready.transport.idle,
      hgrown.ready.transport.captured, hgrown.ready.transport.closed⟩
  · apply hgrown.ready.ordered.snoc
    intro w hw
    obtain ⟨tokens, child, name, form', hline, hchild, rfl⟩ := hw.active hbody
    exact h.selected tokens child name form' hline hchild
  · exact List.Nodup.append hgrown.ready.nodup (List.nodup_singleton view) (by simpa using hnew)
  · intro v hv
    rw [hpop]
    rcases List.mem_append.mp hv with hv | hv
    · intro hmem
      apply hgrown.ready.apart v hv
      rw [hstack]
      exact List.mem_append_left _ hmem
    · rw [List.mem_singleton.mp hv]
      exact hactive
  · exact fun v hv => List.mem_append_left _ (hgrown.walked hv)
  · intro v hv hn
    rcases List.mem_append.mp hv with hv | hv
    · exact hgrown.reached v hv hn
    · rw [List.mem_singleton.mp hv]
  · obtain ⟨visited, hvisited, hreach⟩ := hgrown.records
    have hrecorded : Grown source (relative, requested.map casefold) b
        (recorded source b relative requested form body) := hb.recorded_grown
    obtain ⟨first, hfirst, hown⟩ := hrecorded.records
    refine ⟨first ++ visited, ?_, fun r hr => ?_⟩
    · show state.2.closureRecords = _
      rw [hvisited, ← List.append_assoc, ← hfirst]
      rfl
    · rcases List.mem_append.mp hr with hr | hr
      · exact hown r hr
      · exact hreach r hr
  · intro kind name
    have hnames : last.names kind = state.2.names kind := by cases kind <;> rfl
    have hstart : (OpenADA.Pdk.entering source b relative requested form body).names kind =
        b.names kind := by cases kind <;> rfl
    rw [hnames, h.names kind name, hstart, ← @declares_iff_active _ _ view _ _ hbody]
    apply or_congr_right
    constructor
    · rintro (⟨v, hv, hn, hd⟩ | hd)
      · exact ⟨v, List.mem_append_left _ hv, hn, hd⟩
      · exact ⟨view, hself, hfresh, hd⟩
    · rintro ⟨v, hv, hn, hd⟩
      rcases List.mem_append.mp hv with hv | hv
      · exact .inl ⟨v, hv, hn, hd⟩
      · obtain rfl := List.mem_singleton.mp hv
        exact .inr hd

theorem walk_ok (levels : ℕ) : Walks source (walk source levels) := by
  induction levels with
  | zero =>
    intro relative requested form b b' _ _ h
    cases h
  | succ levels ih =>
    intro relative requested form b b' hb hfile h
    obtain ⟨body, hget⟩ := hb.transport.captured relative hfile
    have hbody := hb.transport.faithful relative body hget
    rw [walk_captured hget] at h
    split_ifs at h with hactive hlimit hwalked
    · obtain rfl := Except.ok.inj h
      refine ⟨hb.recorded_grown, fun kind name => ?_, hwalked⟩
      have hnames : (recorded source b relative requested form body).names kind =
          b.names kind := by cases kind <;> rfl
      have hnone : ¬ ∃ v ∈ b.walkedViews, v ∉ b.walkedViews ∧ Declares source v kind name :=
        fun ⟨_, hv, hn, _⟩ => hn hv
      rw [hnames]
      exact (or_iff_left hnone).symm
    · obtain ⟨⟨sections, last⟩, hlines, h⟩ := Except.bind_eq_ok.mp h
      simp only at h
      split_ifs at h
      obtain rfl := Except.ok.inj h
      have hprogress := walkLines_ok ih hbody (hb.entering hwalked) hfile
        (List.append_nil _).symm hlines
      exact hprogress.complete hb hbody hactive

end Walk

end OpenADA.Pdk

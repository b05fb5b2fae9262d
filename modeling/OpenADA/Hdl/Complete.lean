import OpenADA.Hdl.Closure
import OpenADA.Library.ExceptFold
import Mathlib.Logic.Relation

/-! The closure of the inputs over the include directives. -/
namespace OpenADA.Hdl

open PyStr

section Steps

variable {Item P D : Type} [DecidableEq P] (tree : FileTree Item P D) (directories : List P)

def Served (walk : Walk Item P D) (file : P) (name : PyStr) : Prop :=
  (∃ target, tree.lookup directories file name = some (.ok target) ∧ target ∈ walk.seen) ∨
    tree.lookup directories file name = none ∧ tree.identity file name ∈ walk.unresolved

def FileTree.IsIncludeRecord (file : P) (record : HdlRecord P D) : Prop :=
  ∃ bytes, tree.capture file = .content bytes ∧
    record = ⟨"hdl-include", "rtl.include", file, some (bytes.length, tree.sha256 bytes)⟩

/-- A closure behind the requests of one file, which add files and list names. -/
structure Grows (current : P) (names : List PyStr) (before after : Walk Item P D)
    (added : List P) (missed : List PyStr) : Prop where
  seen : after.seen = before.seen ∪ added.toFinset
  queue : after.queue = before.queue ++ added
  dependencies : after.dependencies = before.dependencies ++ added
  records : ∃ records, after.records = before.records ++ records ∧
    List.Forall₂ tree.IsIncludeRecord added records
  unresolved : after.unresolved = before.unresolved ++ missed
  clean : before.errors = [] ∧ after.errors = []
  nodup : added.Nodup
  fresh : ∀ file ∈ added, file ∉ before.seen
  named : ∀ file ∈ added, ∃ name ∈ names, tree.lookup directories current name = some (.ok file)
  missing : ∀ identity ∈ missed, ∃ name ∈ names,
    tree.lookup directories current name = none ∧ tree.identity current name = identity
  served : ∀ name ∈ names, Served tree directories after current name
  bounded : before.seen.card ≤ maxHdlInputs → after.seen.card ≤ maxHdlInputs

variable {tree directories} {walk before middle after : Walk Item P D} {current : P}
  {name : PyStr} {names : List PyStr}

omit [DecidableEq P] in
theorem Served.mono (h : Served tree directories before current name)
    (hseen : before.seen ⊆ after.seen) (hlisted : before.unresolved ⊆ after.unresolved) :
    Served tree directories after current name := by
  rcases h with ⟨target, hlookup, htarget⟩ | ⟨hlookup, hidentity⟩
  · exact Or.inl ⟨target, hlookup, hseen htarget⟩
  · exact Or.inr ⟨hlookup, hlisted hidentity⟩

omit [DecidableEq P] in
@[simp] theorem Walk.fail_errors (walk : Walk Item P D) (error : HdlError Item P) :
    (walk.fail error).errors ≠ [] := by
  simp [Walk.fail]

theorem Grows.refl (hclean : walk.errors = [])
    (hserved : ∀ name ∈ names, Served tree directories walk current name) :
    Grows tree directories current names walk walk [] [] where
  seen := by simp
  queue := by simp
  dependencies := by simp
  records := ⟨[], by simp⟩
  unresolved := by simp
  clean := ⟨hclean, hclean⟩
  nodup := List.nodup_nil
  fresh := by simp
  named := by simp
  missing := by simp
  served := hserved
  bounded := id

theorem Grows.trans {added added' : List P} {missed missed' : List PyStr}
    (h : Grows tree directories current [name] before middle added missed)
    (h' : Grows tree directories current names middle after added' missed') :
    Grows tree directories current (name :: names) before after (added ++ added')
      (missed ++ missed') where
  seen := by rw [h'.seen, h.seen, List.toFinset_append, Finset.union_assoc]
  queue := by rw [h'.queue, h.queue, List.append_assoc]
  dependencies := by rw [h'.dependencies, h.dependencies, List.append_assoc]
  records := by
    obtain ⟨records, hrecords, hof⟩ := h.records
    obtain ⟨records', hrecords', hof'⟩ := h'.records
    refine ⟨records ++ records', ?_, List.rel_append hof hof'⟩
    rw [hrecords', hrecords, List.append_assoc]
  unresolved := by rw [h'.unresolved, h.unresolved, List.append_assoc]
  clean := ⟨h.clean.1, h'.clean.2⟩
  nodup := by
    refine h.nodup.append h'.nodup ?_
    intro file hfile hfile'
    refine h'.fresh file hfile' ?_
    rw [h.seen]
    exact Finset.mem_union_right _ (List.mem_toFinset.mpr hfile)
  fresh := by
    intro file hfile
    rcases List.mem_append.mp hfile with hfirst | hlater
    · exact h.fresh file hfirst
    · have hnot := h'.fresh file hlater
      rw [h.seen, Finset.mem_union, not_or] at hnot
      exact hnot.1
  named := by
    intro file hfile
    rcases List.mem_append.mp hfile with hfirst | hlater
    · obtain ⟨found, hfound, hlookup⟩ := h.named file hfirst
      exact ⟨found, List.mem_cons.mpr (Or.inl (List.mem_singleton.mp hfound)), hlookup⟩
    · obtain ⟨found, hfound, hlookup⟩ := h'.named file hlater
      exact ⟨found, List.mem_cons_of_mem name hfound, hlookup⟩
  missing := by
    intro identity hidentity
    rcases List.mem_append.mp hidentity with hfirst | hlater
    · obtain ⟨found, hfound, hlookup⟩ := h.missing identity hfirst
      exact ⟨found, List.mem_cons.mpr (Or.inl (List.mem_singleton.mp hfound)), hlookup⟩
    · obtain ⟨found, hfound, hlookup⟩ := h'.missing identity hlater
      exact ⟨found, List.mem_cons_of_mem name hfound, hlookup⟩
  served := by
    intro found hfound
    rcases List.mem_cons.mp hfound with rfl | hlater
    · refine (h.served found List.mem_cons_self).mono ?_ ?_
      · rw [h'.seen]
        exact Finset.subset_union_left
      · rw [h'.unresolved]
        exact List.subset_append_left _ _
    · exact h'.served found hlater
  bounded := fun hcard => h'.bounded (h.bounded hcard)

omit [DecidableEq P] in
/-- What an include without a file comes to, where there are no errors behind it. -/
theorem leave_clean {step : ForInStep (Walk Item P D)}
    (h : walk.leave tree current name = step) (hclean : step.value.errors = []) :
    walk.errors = [] ∧ ∃ missed,
      step = .yield { walk with unresolved := walk.unresolved ++ missed } ∧
      (∀ identity ∈ missed, tree.identity current name = identity) ∧
      tree.identity current name ∈ walk.unresolved ++ missed := by
  unfold Walk.leave at h
  by_cases hlong : maxHdlPathChars < (tree.identity current name).length
  · -- every way on keeps the error
    simp only [if_pos hlong] at h
    split_ifs at h <;> subst h <;> simp [ForInStep.value, Walk.fail] at hclean
  · have htake : (tree.identity current name).take maxHdlPathChars = tree.identity current name :=
      List.take_of_length_le (Nat.le_of_not_lt hlong)
    simp only [if_neg hlong, htake] at h
    split_ifs at h with hcontrol hlisted hfull <;> subst h
    · exact absurd hclean (Walk.fail_errors _ _)
    · exact ⟨hclean, [], by simp, by simp, by simpa using hlisted⟩
    · exact absurd hclean (Walk.fail_errors _ _)
    · exact ⟨hclean, [tree.identity current name], rfl, by simp, by simp⟩

/-- What an include with a file comes to, where there are no errors behind it. -/
theorem depend_clean {target : P} {step : ForInStep (Walk Item P D)}
    (h : walk.depend tree target = step) (hclean : step.value.errors = []) :
    walk.errors = [] ∧ (step = .yield walk ∧ target ∈ walk.seen ∨
      target ∉ walk.seen ∧ (insert target walk.seen).card ≤ maxHdlInputs ∧
      ∃ record, tree.IsIncludeRecord target record ∧ step = .yield { walk with
        seen := insert target walk.seen
        queue := walk.queue ++ [target]
        dependencies := walk.dependencies ++ [target]
        records := walk.records ++ [record] }) := by
  unfold Walk.depend at h
  by_cases hseen : target ∈ walk.seen
  · rw [if_pos hseen] at h
    subst h
    exact ⟨hclean, Or.inl ⟨rfl, hseen⟩⟩
  simp only [if_neg hseen] at h
  by_cases hfull : maxHdlInputs < (insert target walk.seen).card
  · rw [if_pos hfull] at h
    subst h
    exact absurd hclean (Walk.fail_errors _ _)
  · simp only [if_neg hfull, FileTree.fileRecord] at h
    cases hcapture : tree.capture target with
    | unavailable =>
      simp only [hcapture, Option.isNone_none, if_true] at h
      subst h
      exact absurd hclean (Walk.fail_errors _ _)
    | changed =>
      simp only [hcapture] at h
      subst h
      exact absurd hclean (Walk.fail_errors _ _)
    | content bytes =>
      simp only [hcapture] at h
      by_cases hlimit : maxHdlParseBytes < bytes.length
      · simp only [if_pos hlimit] at h
        subst h
        exact absurd hclean (Walk.fail_errors _ _)
      · simp only [if_neg hlimit, Option.isNone_some, Bool.false_eq_true, if_false] at h
        subst h
        exact ⟨hclean, Or.inr ⟨hseen, Nat.le_of_not_lt hfull, _, ⟨bytes, hcapture, rfl⟩, rfl⟩⟩

theorem request_clean {step : ForInStep (Walk Item P D)}
    (h : walk.request tree directories current name = step) (hclean : step.value.errors = []) :
    ∃ after added missed, step = .yield after ∧
      Grows tree directories current [name] walk after added missed := by
  unfold Walk.request at h
  by_cases hcontrol : hasAsciiControl name = true
  · rw [if_pos hcontrol] at h
    subst h
    exact absurd hclean (Walk.fail_errors _ _)
  rw [if_neg hcontrol] at h
  cases hlookup : tree.lookup directories current name with
  | none =>
    simp only [hlookup] at h
    split_ifs at h with herrors
    · obtain ⟨hwalk, missed, rfl, hmissed, hidentity⟩ := leave_clean h hclean
      refine ⟨_, [], missed, rfl, ?_⟩
      exact {
        seen := by simp
        queue := by simp
        dependencies := by simp
        records := ⟨[], by simp⟩
        unresolved := rfl
        clean := ⟨hwalk, hwalk⟩
        nodup := List.nodup_nil
        fresh := by simp
        named := by simp
        missing := fun identity hlisted =>
          ⟨name, List.mem_cons_self, hlookup, hmissed identity hlisted⟩
        served := by
          intro found hfound
          obtain rfl := List.mem_singleton.mp hfound
          exact Or.inr ⟨hlookup, hidentity⟩
        bounded := id }
    · subst h
      exact absurd hclean (by simpa using herrors)
  | some outcome =>
    simp only [hlookup] at h
    cases outcome with
    | error error =>
      subst h
      exact absurd hclean (Walk.fail_errors _ _)
    | ok target =>
      simp only at h
      split_ifs at h with herrors
      · obtain ⟨hwalk, ⟨rfl, hseen⟩ | ⟨hseen, hcard, record, hrecord, rfl⟩⟩ :=
          depend_clean h hclean
        · refine ⟨walk, [], [], rfl, Grows.refl hwalk ?_⟩
          intro found hfound
          obtain rfl := List.mem_singleton.mp hfound
          exact Or.inl ⟨target, hlookup, hseen⟩
        · refine ⟨_, [target], [], rfl, ?_⟩
          exact {
            seen := by rw [Finset.insert_eq, Finset.union_comm]; rfl
            queue := rfl
            dependencies := rfl
            records := ⟨[record], rfl, List.Forall₂.cons hrecord List.Forall₂.nil⟩
            unresolved := by simp
            clean := ⟨hwalk, hwalk⟩
            nodup := List.nodup_singleton target
            fresh := by simpa using hseen
            named := by simpa using hlookup
            missing := by simp
            served := by
              intro found hfound
              obtain rfl := List.mem_singleton.mp hfound
              exact Or.inl ⟨target, hlookup, Finset.mem_insert_self _ _⟩
            bounded := fun _ => hcard }
      · subst h
        exact absurd hclean (by simpa using herrors)

theorem requestAll_clean
    (hclean : (walk.requestAll tree directories current names).errors = []) :
    ∃ added missed, Grows tree directories current names walk
      (walk.requestAll tree directories current names) added missed := by
  induction names generalizing walk with
  | nil => exact ⟨[], [], Grows.refl hclean (by simp)⟩
  | cons name names ih =>
    unfold Walk.requestAll at hclean ⊢
    have hfirst : (walk.request tree directories current name).value.errors = [] →
        ∃ after added missed, walk.request tree directories current name = .yield after ∧
          Grows tree directories current [name] walk after added missed := request_clean rfl
    cases hstep : walk.request tree directories current name with
    | done last =>
      simp only [hstep] at hclean hfirst
      obtain ⟨after, added, missed, hafter, -⟩ := hfirst hclean
      exact nomatch hafter
    | yield next =>
      simp only [hstep] at hclean hfirst ⊢
      obtain ⟨added', missed', hrest⟩ := ih hclean
      obtain ⟨after, added, missed, hafter, hgrows⟩ := hfirst hrest.clean.1
      obtain rfl := ForInStep.yield.inj hafter
      exact ⟨added ++ added', missed ++ missed', hgrows.trans hrest⟩

end Steps

section Loops

variable {Item P D : Type} [DecidableEq P] (tree : FileTree Item P D) (directories : List P)
  (sources : List P)

def FileTree.Includes (file target : P) : Prop :=
  ∃ text, tree.sourceText file = .ok text ∧ ∃ name ∈ includeNames text,
    tree.lookup directories file name = some (.ok target)

def FileTree.Reached (file : P) : Prop :=
  ∃ source ∈ sources, Relation.ReflTransGen (tree.Includes directories) source file

/-- A name under which a matched directive of a reached file stays without a file. -/
def FileTree.Missed (identity : PyStr) : Prop :=
  ∃ file, tree.Reached directories sources file ∧ ∃ text, tree.sourceText file = .ok text ∧
    ∃ name ∈ includeNames text,
      tree.lookup directories file name = none ∧ tree.identity file name = identity

/-- What a closure without errors has at each pass of the loop: every file of it waits for its
parse, or has been parsed and its includes are served. -/
structure Closing (walk : Walk Item P D) : Prop where
  seen : ∀ file, file ∈ walk.seen ↔ file ∈ sources ∨ file ∈ walk.dependencies
  queued : ∀ file ∈ walk.queue, file ∈ walk.seen
  nodup : walk.dependencies.Nodup
  apart : ∀ file ∈ walk.dependencies, file ∉ sources
  records : ∃ records, walk.records = tree.sourceRecords sources ++ records ∧
    List.Forall₂ tree.IsIncludeRecord walk.dependencies records
  reached : ∀ file ∈ walk.seen, tree.Reached directories sources file
  missed : ∀ identity ∈ walk.unresolved, tree.Missed directories sources identity
  parsed : ∀ file ∈ walk.seen, file ∈ walk.queue ∨ ∃ text, tree.sourceText file = .ok text ∧
    ∀ name ∈ includeNames text, Served tree directories walk file name
  bounded : walk.seen.card ≤ maxHdlInputs

def Walk.passes (walk : Walk Item P D) : ℕ :=
  if walk.errors.isEmpty then walk.queue.length + (maxHdlInputs - walk.seen.card) else 0

variable {tree directories sources} {walk next : Walk Item P D} {current : P}

theorem visit_clean (hclean : (walk.visit tree directories current).errors = []) :
    ∃ text added missed, tree.sourceText current = .ok text ∧
      Grows tree directories current (includeNames text) walk
        (walk.visit tree directories current) added missed := by
  unfold Walk.visit at hclean ⊢
  cases htext : tree.sourceText current with
  | error error =>
    simp only [htext] at hclean
    exact absurd hclean (Walk.fail_errors _ _)
  | ok text =>
    simp only [htext] at hclean ⊢
    obtain ⟨added, missed, hgrows⟩ := requestAll_clean hclean
    refine ⟨text, added, missed, rfl, ?_⟩
    -- without errors, no argument is computed
    obtain ⟨hwalk, hcomputed⟩ := List.append_eq_nil_iff.mp hgrows.clean.1
    rw [hcomputed, List.append_nil] at hgrows ⊢
    exact hgrows

theorem Closing.visit (h : Closing tree directories sources walk) {rest : List P}
    (hqueue : walk.queue = current :: rest)
    (hclean : next.errors = []) (hnext : next = Walk.visit tree directories current
      { walk with queue := rest }) :
    Closing tree directories sources next := by
  subst hnext
  obtain ⟨text, added, missed, htext, hgrows⟩ := visit_clean hclean
  have hcurrent : current ∈ walk.seen := h.queued current (by simp [hqueue])
  have hreached := h.reached current hcurrent
  exact {
    seen := by
      intro file
      rw [hgrows.seen, hgrows.dependencies, Finset.mem_union, List.mem_append, List.mem_toFinset,
        h.seen, or_assoc]
    queued := by
      intro file hfile
      rw [hgrows.seen, Finset.mem_union, List.mem_toFinset]
      rw [hgrows.queue, List.mem_append] at hfile
      exact hfile.imp_left fun hrest => h.queued file (by simp [hqueue, hrest])
    nodup := by
      rw [hgrows.dependencies]
      refine h.nodup.append hgrows.nodup ?_
      intro file hold hnew
      exact hgrows.fresh file hnew ((h.seen file).mpr (Or.inr hold))
    apart := by
      intro file hfile hsource
      rw [hgrows.dependencies, List.mem_append] at hfile
      rcases hfile with hold | hnew
      · exact h.apart file hold hsource
      · exact hgrows.fresh file hnew ((h.seen file).mpr (Or.inl hsource))
    records := by
      obtain ⟨records, hrecords, hof⟩ := h.records
      obtain ⟨records', hrecords', hof'⟩ := hgrows.records
      refine ⟨records ++ records', ?_, ?_⟩
      · rw [hrecords', ← List.append_assoc, ← hrecords]
      · rw [hgrows.dependencies]
        exact List.rel_append hof hof'
    reached := by
      intro file hfile
      rw [hgrows.seen, Finset.mem_union, List.mem_toFinset] at hfile
      rcases hfile with hold | hnew
      · exact h.reached file hold
      · obtain ⟨name, hname, hlookup⟩ := hgrows.named file hnew
        obtain ⟨source, hsource, hpath⟩ := hreached
        exact ⟨source, hsource, hpath.tail ⟨text, htext, name, hname, hlookup⟩⟩
    missed := by
      intro identity hidentity
      rw [hgrows.unresolved, List.mem_append] at hidentity
      rcases hidentity with hold | hnew
      · exact h.missed identity hold
      · obtain ⟨name, hname, hlookup⟩ := hgrows.missing identity hnew
        exact ⟨current, hreached, text, htext, name, hname, hlookup⟩
    parsed := by
      intro file hfile
      rw [hgrows.seen, Finset.mem_union, List.mem_toFinset] at hfile
      rw [hgrows.queue, List.mem_append]
      rcases hfile with hold | hnew
      · rcases h.parsed file hold with hwaits | ⟨parsed, hparsed, hserved⟩
        · rw [hqueue, List.mem_cons] at hwaits
          rcases hwaits with rfl | hrest
          · exact Or.inr ⟨text, htext, hgrows.served⟩
          · exact Or.inl (Or.inl hrest)
        · refine Or.inr ⟨parsed, hparsed, fun name hname => (hserved name hname).mono ?_ ?_⟩
          · rw [hgrows.seen]
            exact Finset.subset_union_left
          · rw [hgrows.unresolved]
            exact List.subset_append_left _ _
      · exact Or.inl (Or.inr hnew)
    bounded := hgrows.bounded h.bounded }

theorem Closing.passes_lt (h : Closing tree directories sources walk) {rest : List P}
    (hqueue : walk.queue = current :: rest) (hwalk : walk.errors = []) :
    (Walk.visit tree directories current { walk with queue := rest }).passes < walk.passes := by
  have hlength : walk.queue.length = rest.length + 1 := by rw [hqueue, List.length_cons]
  rw [Walk.passes, Walk.passes, if_pos (List.isEmpty_iff.mpr hwalk)]
  split_ifs with hclean
  · obtain ⟨text, added, missed, -, hgrows⟩ := visit_clean (List.isEmpty_iff.mp hclean)
    have hcard : (walk.seen ∪ added.toFinset).card = walk.seen.card + added.length := by
      rw [Finset.card_union_of_disjoint, List.toFinset_card_of_nodup hgrows.nodup]
      rw [Finset.disjoint_right]
      intro file hfile
      exact hgrows.fresh file (List.mem_toFinset.mp hfile)
    have hbounded := hgrows.bounded h.bounded
    rw [hgrows.seen, hcard] at hbounded
    rw [hgrows.queue, hgrows.seen, List.length_append, hcard, hlength]
    show rest.length + added.length + (maxHdlInputs - (walk.seen.card + added.length)) <
      rest.length + 1 + (maxHdlInputs - walk.seen.card)
    omega
  · omega

theorem step_closing (h : walk.errors = [] → Closing tree directories sources walk)
    (hstep : walk.step tree directories = some next) :
    (next.errors = [] → Closing tree directories sources next) ∧ next.passes < walk.passes := by
  unfold Walk.step at hstep
  cases hqueue : walk.queue with
  | nil => simp [hqueue] at hstep
  | cons current rest =>
    simp only [hqueue] at hstep
    split_ifs at hstep with herrors
    · have hwalk := List.isEmpty_iff.mp herrors
      have hnext := Option.some.inj hstep
      refine ⟨fun hclean => (h hwalk).visit hqueue hclean hnext.symm, ?_⟩
      rw [← hnext]
      exact (h hwalk).passes_lt hqueue hwalk

omit [DecidableEq P] in
theorem those_eq_ok {question : P → Option Bool} {paths found : List P}
    (h : those question paths = .ok found) :
    found = paths.filter fun path => question path = some true := by
  unfold those at h
  split_ifs at h
  exact (Except.ok.inj h).symm

omit [DecidableEq P] in
theorem length_inputPaths_le (label : String) (items : List Item) :
    (tree.inputPaths label items).length ≤ maxHdlInputs :=
  (List.length_filterMap_le _ _).trans (List.length_take_le _ _)

theorem start_eq_ok {items directoryItems : List Item} {start : Walk Item P D}
    (h : tree.start items directoryItems = .ok start) :
    let paths := tree.inputPaths "source" items
    start.seen = paths.toFinset ∧
      start.queue = paths.filter (fun path => tree.isFile path = some true) ∧
      start.dependencies = [] ∧ start.records = tree.sourceRecords paths ∧
      start.unresolved = [] ∧ (start.errors = [] → ∀ path ∈ paths, ∃ bytes,
        tree.capture path = .content bytes) := by
  unfold FileTree.start at h
  obtain ⟨found, -, h⟩ := Except.bind_eq_ok.mp h
  obtain ⟨queue, hqueue, h⟩ := Except.bind_eq_ok.mp h
  obtain rfl := Except.ok.inj h
  refine ⟨rfl, those_eq_ok hqueue, rfl, rfl, rfl, ?_⟩
  intro hclean path hpath
  obtain ⟨hclean, hmissing⟩ := List.append_eq_nil_iff.mp hclean
  obtain ⟨-, hrefused⟩ := List.append_eq_nil_iff.mp hclean
  have hrecord := List.filterMap_eq_nil_iff.mp hrefused path hpath
  have hexists : ∀ record : HdlRecord P D, (tree.fileRecord "hdl-source" "rtl.source" path :
      Except (HdlError Item P) _) = .ok record → ¬record.captured.isNone = true := by
    intro record hof
    have hmem : record ∈ tree.sourceRecords (tree.inputPaths "source" items) :=
      List.mem_filterMap.mpr ⟨path, hpath, by rw [hof]; rfl⟩
    exact List.filter_eq_nil_iff.mp (List.map_eq_nil_iff.mp hmissing) record hmem
  cases hcapture : tree.capture path with
  | unavailable => simp [FileTree.fileRecord, hcapture] at hexists
  | changed => simp [FileTree.fileRecord, hcapture, errorOf] at hrecord
  | content bytes => exact ⟨bytes, rfl⟩

theorem start_closing {items directoryItems : List Item} {start : Walk Item P D}
    (h : tree.start items directoryItems = .ok start) (hclean : start.errors = []) :
    Closing tree directories (tree.inputPaths "source" items) start := by
  obtain ⟨hseen, hqueue, hdependencies, hrecords, hunresolved, hcaptured⟩ := start_eq_ok h
  have hwaits : ∀ file ∈ start.seen, file ∈ start.queue := by
    intro file hfile
    rw [hseen, List.mem_toFinset] at hfile
    obtain ⟨bytes, hbytes⟩ := hcaptured hclean file hfile
    rw [hqueue, List.mem_filter, tree.isFile_of_capture file bytes hbytes]
    exact ⟨hfile, by simp⟩
  exact {
    seen := by simp [hseen, hdependencies]
    queued := by
      intro file hfile
      rw [hqueue] at hfile
      rw [hseen, List.mem_toFinset]
      exact List.mem_of_mem_filter hfile
    nodup := by
      rw [hdependencies]
      exact List.nodup_nil
    apart := by simp [hdependencies]
    records := ⟨[], by rw [hrecords, List.append_nil], by rw [hdependencies]; exact .nil⟩
    reached := by
      intro file hfile
      rw [hseen, List.mem_toFinset] at hfile
      exact ⟨file, hfile, Relation.ReflTransGen.refl⟩
    missed := by simp [hunresolved]
    parsed := fun file hfile => Or.inl (hwaits file hfile)
    bounded := by
      rw [hseen]
      exact (List.toFinset_card_le _).trans (length_inputPaths_le _ _) }

theorem start_passes {items directoryItems : List Item} {start : Walk Item P D}
    (h : tree.start items directoryItems = .ok start) : start.passes ≤ 2 * maxHdlInputs := by
  obtain ⟨-, hqueue, -⟩ := start_eq_ok h
  have hlength : start.queue.length ≤ maxHdlInputs := by
    rw [hqueue]
    exact (List.length_filter_le _ _).trans (length_inputPaths_le _ _)
  unfold Walk.passes
  split_ifs
  · omega
  · omega

omit [DecidableEq P] in
theorem those_ne_unfinished (question : P → Option Bool) (paths : List P) :
    those question paths ≠ .error .unfinished := by
  unfold those
  split_ifs <;> simp

theorem start_ne_unfinished (items directoryItems : List Item) :
    tree.start items directoryItems ≠ .error .unfinished := by
  intro h
  unfold FileTree.start at h
  rcases Except.bind_eq_error.mp h with hfirst | ⟨found, -, h⟩
  · exact those_ne_unfinished _ _ hfirst
  rcases Except.bind_eq_error.mp h with hsecond | ⟨queue, -, h⟩
  · exact those_ne_unfinished _ _ hsecond
  · exact nomatch h

/-- The loop comes to its end, and a closure without errors has then parsed every file of it. -/
theorem run_closing (directories : List P) {items directoryItems : List Item}
    {start : Walk Item P D} (h : tree.start items directoryItems = .ok start) :
    ∃ last, Loop.run (Walk.step tree directories) (2 * maxHdlInputs) start = some last ∧
      (last.errors = [] → Closing tree directories (tree.inputPaths "source" items) last ∧
        last.queue = []) := by
  have hinvariant : ∀ walk next : Walk Item P D,
      (walk.errors = [] → Closing tree directories (tree.inputPaths "source" items) walk) →
      walk.step tree directories = some next →
      (next.errors = [] → Closing tree directories (tree.inputPaths "source" items) next) ∧
        next.passes < walk.passes := fun _ _ => step_closing
  obtain ⟨last, hlast⟩ := Loop.run_ends Walk.passes hinvariant (start_closing h) (start_passes h)
  obtain ⟨hclosing, hend⟩ := Loop.run_invariant
    (fun walk next hwalk hstep => (hinvariant walk next hwalk hstep).1) (start_closing h) hlast
  refine ⟨last, hlast, fun hclean => ⟨hclosing hclean, ?_⟩⟩
  unfold Walk.step at hend
  cases hqueue : last.queue with
  | nil => rfl
  | cons current rest => simp [hqueue, hclean] at hend

theorem resolve_ne_unfinished (items directoryItems : List Item) :
    resolveHdlInputs tree items directoryItems ≠ .error .unfinished := by
  intro h
  unfold resolveHdlInputs at h
  rcases Except.bind_eq_error.mp h with hstart | ⟨start, hstart, h⟩
  · exact start_ne_unfinished _ _ hstart
  · obtain ⟨last, hlast, -⟩ :=
      run_closing (tree.inputPaths "include directory" directoryItems) hstart
    rw [hlast] at h
    exact nomatch h

theorem resolve_eq_ok {items directoryItems : List Item} {closure : HdlClosure Item P D}
    (h : resolveHdlInputs tree items directoryItems = .ok closure) (hclean : closure.errors = []) :
    closure.sources = tree.inputPaths "source" items ∧ ∃ walk,
      Closing tree (tree.inputPaths "include directory" directoryItems)
        (tree.inputPaths "source" items) walk ∧ walk.queue = [] ∧
      closure.dependencies = walk.dependencies ∧ closure.records = walk.records ∧
      closure.unresolved = walk.unresolved := by
  unfold resolveHdlInputs at h
  obtain ⟨start, hstart, h⟩ := Except.bind_eq_ok.mp h
  obtain ⟨last, hlast, hclosing⟩ :=
    run_closing (tree.inputPaths "include directory" directoryItems) hstart
  rw [hlast] at h
  obtain rfl := Except.ok.inj h
  obtain ⟨hlastClosing, hqueue⟩ := hclosing hclean
  exact ⟨rfl, last, hlastClosing, hqueue, rfl, rfl, rfl⟩

end Loops

section Completeness

variable {Item P D : Type} [DecidableEq P] (lex : Preprocessor) (tree : FileTree Item P D)
  (directories : List P)

/-- A directive has its file among the inputs, or is listed as unresolved. -/
def Covered (closure : HdlClosure Item P D) (file : P) (name : PyStr) : Prop :=
  (∃ target, tree.lookup directories file name = some (.ok target) ∧
    (target ∈ closure.sources ∨ target ∈ closure.dependencies)) ∨
  tree.identity file name ∈ closure.unresolved

/-- Every directive that a preprocessor sees in an input is covered, and the dependencies are the
files that the sources lead to, each recorded once. -/
structure Complete (closure : HdlClosure Item P D) : Prop where
  covered : ∀ file, file ∈ closure.sources ∨ file ∈ closure.dependencies →
    ∃ text, tree.sourceText file = .ok text ∧ ∀ directive ∈ lex.directives text,
      Covered tree directories closure file directive.name
  once : closure.dependencies.Nodup ∧ ∀ file ∈ closure.dependencies, file ∉ closure.sources
  hashed : ∃ records, closure.records = tree.sourceRecords closure.sources ++ records ∧
    List.Forall₂ tree.IsIncludeRecord closure.dependencies records
  reachable : ∀ file ∈ closure.dependencies, tree.Reached directories closure.sources file

/-- Every directive that a preprocessor sees in a file the matched directives lead to is matched
itself, or says no more than matched directives do. -/
def PatternsCover (sources : List P) : Prop :=
  ∀ file, tree.Reached directories sources file → ∀ text, tree.sourceText file = .ok text →
    ∀ directive ∈ lex.directives text, directive.name ∈ includeNames text ∨
      (∃ target, tree.lookup directories file directive.name = some (.ok target) ∧
        tree.Reached directories sources target) ∨
      tree.Missed directories sources (tree.identity file directive.name)

variable {lex tree directories} {sources : List P} {walk : Walk Item P D}

omit [DecidableEq P] in
/-- Where all files are parsed, the closure holds what the matched directives lead to. -/
theorem Closing.mem_of_reached (h : Closing tree directories sources walk)
    (hqueue : walk.queue = []) {file : P} (hreached : tree.Reached directories sources file) :
    file ∈ walk.seen := by
  obtain ⟨source, hsource, hpath⟩ := hreached
  induction hpath with
  | refl => exact (h.seen source).mpr (Or.inl hsource)
  | tail _ hincludes ih =>
    obtain ⟨text, htext, name, hname, hlookup⟩ := hincludes
    rcases h.parsed _ ih with hwaits | ⟨parsed, hparsed, hserved⟩
    · simp [hqueue] at hwaits
    · obtain rfl := Except.ok.inj (hparsed.symm.trans htext)
      rcases hserved name hname with ⟨target, htarget, hmem⟩ | ⟨hnone, -⟩
      · rw [hlookup] at htarget
        exact (Except.ok.inj (Option.some.inj htarget)) ▸ hmem
      · rw [hlookup] at hnone
        exact nomatch hnone

omit [DecidableEq P] in
theorem Closing.text (h : Closing tree directories sources walk) (hqueue : walk.queue = [])
    {file : P} (hfile : file ∈ walk.seen) :
    ∃ text, tree.sourceText file = .ok text ∧
      ∀ name ∈ includeNames text, Served tree directories walk file name := by
  rcases h.parsed file hfile with hwaits | hparsed
  · simp [hqueue] at hwaits
  · exact hparsed

omit [DecidableEq P] in
theorem Closing.mem_of_missed (h : Closing tree directories sources walk)
    (hqueue : walk.queue = []) {identity : PyStr}
    (hmissed : tree.Missed directories sources identity) : identity ∈ walk.unresolved := by
  obtain ⟨file, hreached, text, htext, name, hname, hnone, rfl⟩ := hmissed
  obtain ⟨parsed, hparsed, hserved⟩ := h.text hqueue (h.mem_of_reached hqueue hreached)
  obtain rfl := Except.ok.inj (hparsed.symm.trans htext)
  rcases hserved name hname with ⟨target, htarget, -⟩ | ⟨-, hlisted⟩
  · rw [hnone] at htarget
    exact nomatch htarget
  · exact hlisted

/-- Resolving the inputs comes to an end. A closure without errors is complete just where the
patterns cover what a preprocessor sees. -/
theorem closure_complete_iff (lex : Preprocessor) (tree : FileTree Item P D)
    (sources directoryItems : List Item) :
    resolveHdlInputs tree sources directoryItems ≠ .error .unfinished ∧
      ∀ closure, resolveHdlInputs tree sources directoryItems = .ok closure →
        closure.errors = [] →
        (Complete lex tree (tree.inputPaths "include directory" directoryItems) closure ↔
          PatternsCover lex tree (tree.inputPaths "include directory" directoryItems)
            (tree.inputPaths "source" sources)) := by
  refine ⟨resolve_ne_unfinished _ _, fun closure h hclean => ?_⟩
  obtain ⟨hsources, walk, hclosing, hqueue, hdependencies, hrecords, hunresolved⟩ :=
    resolve_eq_ok h hclean
  have hmem : ∀ file, file ∈ closure.sources ∨ file ∈ closure.dependencies ↔ file ∈ walk.seen := by
    intro file
    rw [hsources, hdependencies, hclosing.seen]
  constructor
  · intro hcomplete file hreached text htext directive hdirective
    obtain ⟨parsed, hparsed, hcovered⟩ := hcomplete.covered file
      ((hmem file).mpr (hclosing.mem_of_reached hqueue hreached))
    obtain rfl := Except.ok.inj (hparsed.symm.trans htext)
    rcases hcovered directive hdirective with ⟨target, hlookup, htarget⟩ | hlisted
    · exact Or.inr (Or.inl ⟨target, hlookup, hclosing.reached target ((hmem target).mp htarget)⟩)
    · rw [hunresolved] at hlisted
      exact Or.inr (Or.inr (hclosing.missed _ hlisted))
  · intro hcover
    refine ⟨?_, ?_, ?_, ?_⟩
    · intro file hfile
      rw [hmem] at hfile
      obtain ⟨text, htext, hserved⟩ := hclosing.text hqueue hfile
      refine ⟨text, htext, fun directive hdirective => ?_⟩
      unfold Covered
      simp only [hmem, hunresolved]
      rcases hcover file (hclosing.reached file hfile) text htext directive hdirective with
        hname | ⟨target, hlookup, hreached⟩ | hmissed
      · rcases hserved directive.name hname with hresolved | ⟨-, hlisted⟩
        · exact Or.inl hresolved
        · exact Or.inr hlisted
      · exact Or.inl ⟨target, hlookup, hclosing.mem_of_reached hqueue hreached⟩
      · exact Or.inr (hclosing.mem_of_missed hqueue hmissed)
    · rw [hdependencies, hsources]
      exact ⟨hclosing.nodup, hclosing.apart⟩
    · rw [hrecords, hsources, hdependencies]
      exact hclosing.records
    · intro file hfile
      rw [hsources]
      exact hclosing.reached file ((hmem file).mp (Or.inr hfile))

/-- A source whose directive follows a word on its line, and the file that it includes. -/
def midLineTree : FileTree PyStr PyStr (List UInt8) where
  locate := some
  pathText := id
  parent path := (path.rdropWhile fun c => c ≠ point '/').dropLast
  child path name := path ++ point '/' :: name
  isFile path := some (path = lit "/d/top.v" || path = lit "/d/f")
  isDir path := some (path = lit "/d")
  resolve := some
  capture path :=
    if path = lit "/d/top.v" then
      .content [120, 32, 96, 105, 110, 99, 108, 117, 100, 101, 32, 34, 102, 34]
    else if path = lit "/d/f" then .content []
    else .unavailable
  sha256 := id
  isFile_of_capture path bytes h := by
    split_ifs at h with htop hother <;> simp [*]

def plainSpaces : Preprocessor := ⟨fun c => c = point ' ', fun c => c = point '\n'⟩

/-- The directive in `x `include "f"` is seen and its file is there, but it is no input and no name
is listed. -/
theorem midLine_missed :
    ∃ closure, resolveHdlInputs midLineTree [lit "/d/top.v"] [] = .ok closure ∧
      closure.errors = [] ∧ ¬ Complete plainSpaces midLineTree [] closure := by
  obtain ⟨closure, hclosure, hshape⟩ := Except.exists_ok_of_any
    (x := resolveHdlInputs midLineTree [lit "/d/top.v"] [])
    (p := fun closure => closure.errors.isEmpty && decide (closure.sources = [lit "/d/top.v"]) &&
      closure.dependencies.isEmpty && closure.unresolved.isEmpty) (by decide)
  simp only [Bool.and_eq_true, List.isEmpty_iff, decide_eq_true_eq] at hshape
  obtain ⟨⟨⟨herrors, hsources⟩, hdependencies⟩, hunresolved⟩ := hshape
  refine ⟨closure, hclosure, herrors, fun hcomplete => ?_⟩
  obtain ⟨text, htext, hcovered⟩ := hcomplete.covered (lit "/d/top.v") (by simp [hsources])
  have hread : midLineTree.sourceText (lit "/d/top.v") = .ok (lit "x `include \"f\"") := by
    rfl
  obtain rfl := Except.ok.inj (hread.symm.trans htext)
  rcases hcovered ⟨false, lit " ", lit "f"⟩ (by decide) with ⟨target, hlookup, htarget⟩ | hlisted
  · have hfound : midLineTree.lookup [] (lit "/d/top.v") (lit "f") = some (.ok (lit "/d/f")) := by
      rfl
    obtain rfl := Except.ok.inj (Option.some.inj (hfound.symm.trans hlookup))
    simp [hsources, hdependencies] at htarget
  · simp [hunresolved] at hlisted

end Completeness

end OpenADA.Hdl

import OpenADA.Pdk.Binding

/-! The gating of a snapshot serves every card that is bound against it: a card of an extended role
names it by a word the scan of the deck finds, and the library entries of a family are kept
together. -/
namespace OpenADA.Pdk

open PyText Occurrence

section Lowering

variable (cases : CaseMap)

theorem IsGap.ne_sigma {c : Char} (h : IsGap c) : c ≠ 'Σ' := by
  rintro rfl
  rcases h with h | h
  · revert h
    decide
  · revert h
    decide

theorem IsGap.lowerChar_eq {c : Char} (h : IsGap c) : cases.lowerChar c = [c] := by
  rcases h with h | h
  · exact cases.space c h
  · simp only [List.mem_cons, List.not_mem_nil, or_false] at h
    rcases h with rfl | rfl <;> exact cases.ascii _ (by decide)

theorem IsGap.not_isTokenChar {c : Char} (h : IsGap c) : isTokenChar c = false := by
  rcases h with h | h
  · have hle (low high : Char) : (decide (low ≤ c) && decide (c ≤ high)) = true →
        low.toNat ≤ c.toNat ∧ c.toNat ≤ high.toNat := by
      intro hbounds
      obtain ⟨hlow, hhigh⟩ := Bool.and_eq_true_iff.mp hbounds
      exact ⟨UInt32.le_iff_toNat_le.mp (of_decide_eq_true hlow),
        UInt32.le_iff_toNat_le.mp (of_decide_eq_true hhigh)⟩
    by_contra htoken
    have htoken := Bool.eq_true_of_not_eq_false htoken
    simp only [isSpace, Bool.or_eq_true, Bool.and_eq_true, decide_eq_true_eq] at h
    simp only [isTokenChar, Bool.or_eq_true, decide_eq_true_eq] at htoken
    rcases htoken with ((hletter | hdigit) | rfl) | rfl
    · have hbounds := hle 'a' 'z' hletter
      simp only [show 'a'.toNat = 97 from rfl, show 'z'.toNat = 122 from rfl] at hbounds
      omega
    · have hbounds := hle '0' '9' hdigit
      simp only [show '0'.toNat = 48 from rfl, show '9'.toNat = 57 from rfl] at hbounds
      omega
    · revert h
      decide
    · revert h
      decide
  · simp only [List.mem_cons, List.not_mem_nil, or_false] at h
    rcases h with rfl | rfl <;> decide

/-- The lower-case text of a first part ends in the gap the part ends in. -/
theorem lowerFrom_append (before first second : List Char) :
    ∃ lowered, cases.lowerFrom before (first ++ second) =
        lowered ++ cases.lowerFrom (before ++ first) second ∧ (first = [] → lowered = []) ∧
      ∀ c ∈ first.getLast?, IsGap c → lowered.getLast? = some c := by
  induction first generalizing before with
  | nil => exact ⟨[], by simp, fun _ => rfl, fun c hc => nomatch hc⟩
  | cons c rest ih =>
    obtain ⟨lowered, hlowered, hnil, hlast⟩ := ih (before ++ [c])
    rw [List.append_assoc] at hlowered
    refine ⟨(if c = 'Σ' then [if cases.finalSigma before (rest ++ second) then 'ς' else 'σ']
      else cases.lowerChar c) ++ lowered, ?_, by simp, ?_⟩
    · rw [List.cons_append, CaseMap.lowerFrom, hlowered, List.append_assoc]
      rfl
    · intro d hd hgap
      cases hrest : rest.getLast? with
      | none =>
        obtain rfl := List.getLast?_eq_none_iff.mp hrest
        have hd : c = d := by simpa using hd
        subst hd
        rw [hnil rfl, List.append_nil, if_neg hgap.ne_sigma, hgap.lowerChar_eq]
        rfl
      | some e =>
        have hmem : e = d := by
          rw [List.getLast?_cons, hrest] at hd
          exact Option.some.inj hd
        subst hmem
        have hlowered := hlast e hrest hgap
        rw [List.getLast?_append, hlowered]
        rfl

theorem lowerFrom_word {word : List Char} (hw : ∀ c ∈ word, c ≠ 'Σ') (before rest : List Char) :
    cases.lowerFrom before (word ++ rest) =
      word.flatMap cases.lowerChar ++ cases.lowerFrom (before ++ word) rest := by
  induction word generalizing before with
  | nil => simp
  | cons c word ih =>
    rw [List.cons_append, CaseMap.lowerFrom, if_neg (hw c (List.mem_cons_self ..)),
      ih (fun d hd => hw d (List.mem_cons_of_mem _ hd)), List.flatMap_cons, List.append_assoc,
      List.append_assoc]
    rfl

/-- A word whose lower-case form is a token has neither a sigma nor a gap. -/
theorem word_of_token {word : List Char} (before : List Char)
    (h : ∀ c ∈ cases.lowerFrom before word, isTokenChar c = true) :
    ∀ c ∈ word, c ≠ 'Σ' ∧ ¬ IsGap c := by
  induction word generalizing before with
  | nil => simp
  | cons d word ih =>
    rw [CaseMap.lowerFrom] at h
    intro c hc
    rcases List.mem_cons.mp hc with rfl | hc
    · have hsigma : c ≠ 'Σ' := by
        rintro rfl
        have := h _ (List.mem_append_left _ (by rw [if_pos rfl]; exact List.mem_singleton_self _))
        split_ifs at this <;> revert this <;> decide
      refine ⟨hsigma, fun hgap => ?_⟩
      have htoken := h c (List.mem_append_left _ (by
        rw [if_neg hsigma, hgap.lowerChar_eq]
        exact List.mem_singleton_self _))
      rw [hgap.not_isTokenChar] at htoken
      cases htoken
    · exact ih _ (fun e he => h e (List.mem_append_right _ he)) c hc

end Lowering

section Scanning

theorem findsToken_of_tokenAt {token text : List Char} {previous : Option Char}
    (hprevious : ∀ c ∈ previous, isTokenChar c = false) (h : tokenAt token text = true) :
    findsToken token previous text = true := by
  have hall : (previous.all fun c => !isTokenChar c) = true := by
    cases previous with
    | none => rfl
    | some c => simp [hprevious c rfl]
  cases text with
  | nil => simp [findsToken, hall, h]
  | cons c rest => simp [findsToken, hall, h]

theorem findsToken_between {token before after : List Char} {previous : Option Char}
    (hprevious : before = [] → ∀ c ∈ previous, isTokenChar c = false)
    (hbefore : ∀ c ∈ before.getLast?, isTokenChar c = false)
    (hafter : ∀ c ∈ after.head?, isTokenChar c = false) :
    findsToken token previous (before ++ token ++ after) = true := by
  induction before generalizing previous with
  | nil =>
    apply findsToken_of_tokenAt (hprevious rfl)
    rw [List.nil_append, tokenAt, Bool.and_eq_true_iff]
    refine ⟨List.isPrefixOf_iff_prefix.mpr (List.prefix_append _ _), ?_⟩
    rw [List.drop_left]
    cases hhead : after.head? with
    | none => rfl
    | some c => simp [hafter c hhead]
  | cons c rest ih =>
    rw [List.cons_append, List.cons_append, findsToken, Bool.or_eq_true]
    right
    apply ih
    · rintro rfl d hd
      obtain rfl := Option.some.inj hd
      exact hbefore c rfl
    · intro d hd
      apply hbefore
      rw [List.getLast?_cons_of_ne_nil (by rintro rfl; cases hd)]
      exact hd

/-- The scan finds the family of a word of the deck that is a token of it up to case. -/
theorem findsToken_of_occurs (cases : CaseMap) {word deck : List Char}
    (hword : ∀ c ∈ cases.lower word, isTokenChar c = true) (h : Occurs IsGap word deck) :
    findsToken (cases.lower word) none (cases.lower deck) = true := by
  have hchars := word_of_token cases [] hword
  have hsigma : ∀ c ∈ word, c ≠ 'Σ' := fun c hc => (hchars c hc).1
  obtain ⟨before, after, rfl, hbefore, hafter⟩ := h
  obtain ⟨lowered, hlowered, hnil, hlast⟩ := lowerFrom_append cases [] before (word ++ after)
  have htoken : cases.lower word = word.flatMap cases.lowerChar := by
    have := lowerFrom_word cases hsigma [] []
    rw [List.append_nil] at this
    rw [CaseMap.lower, this]
    simp [CaseMap.lowerFrom]
  rw [htoken, CaseMap.lower, List.append_assoc, hlowered, lowerFrom_word cases hsigma,
    ← List.append_assoc]
  apply findsToken_between
  · rintro - c hc
    cases hc
  · intro c hc
    cases hbeforeLast : before.getLast? with
    | none =>
      rw [hnil (List.getLast?_eq_none_iff.mp hbeforeLast)] at hc
      cases hc
    | some d =>
      have hgap := hbefore d hbeforeLast
      obtain rfl := Option.some.inj (hc.symm.trans (hlast d hbeforeLast hgap))
      exact hgap.not_isTokenChar
  · intro c hc
    cases after with
    | nil => cases hc
    | cons d rest =>
      have hgap := hafter d rfl
      rw [CaseMap.lowerFrom, if_neg hgap.ne_sigma, hgap.lowerChar_eq] at hc
      obtain rfl := Option.some.inj hc
      exact hgap.not_isTokenChar

theorem mem_scan {found : Finset String} {entries : List (String × String)} {lowered : List Char}
    {role : String}
    (h : role ∈ found ∨ ∃ entry ∈ entries, entry.2 = role ∧
      findsToken entry.1.toList none lowered = true) :
    role ∈ entries.foldl (fun found entry =>
      if entry.2 ∈ found then found
      else if findsToken entry.1.toList none lowered then insert entry.2 found
      else found) found := by
  induction entries generalizing found with
  | nil =>
    rcases h with h | ⟨entry, hmem, -⟩
    · exact h
    · cases hmem
  | cons entry rest ih =>
    rw [List.foldl_cons]
    apply ih
    rcases h with h | ⟨other, hmem, rfl, hfinds⟩
    · left
      split_ifs
      · exact h
      · exact Finset.mem_insert_of_mem h
      · exact h
    · rcases List.mem_cons.mp hmem with rfl | hmem
      · left
        split_ifs with hfound
        · exact hfound
        · exact Finset.mem_insert_self ..
      · exact .inr ⟨other, hmem, rfl, hfinds⟩

end Scanning

section Vocabulary

/-- What the gating relies on of the registered profiles: the tokens are words of token characters,
and every role, registered model and indexed name of an extended role is one. -/
def Vocabulary (tokens index : InsertionDict String String) : Prop :=
  (∀ entry ∈ tokens.entries, entry.1.toList ≠ [] ∧ entry.1.toList.all isTokenChar = true) ∧
    (∀ role ∈ extendedDeviceRoles, (role, role) ∈ tokens.entries) ∧
    (∀ binding ∈ registry, ∀ entry ∈ binding.deviceModels, entry.1 ∈ extendedDeviceRoles →
      (lowerName entry.2, entry.1) ∈ tokens.entries) ∧
    ∀ entry ∈ index.entries, entry.2 ∈ extendedDeviceRoles → entry ∈ tokens.entries

def registeredModels : List (String × String) :=
  [("sg13_lv_nmos", "nmos.core"), ("sg13_lv_pmos", "pmos.core"), ("sg13_hv_nmos", "nmos.io"),
    ("sg13_hv_pmos", "pmos.io"), ("dantenna", "diode.core"), ("npn13g2", "bjt.npn"),
    ("pnpmpa", "bjt.pnp"), ("rppd", "resistor.poly"), ("cap_cmim", "cap.mim"),
    ("sky130_fd_pr__nfet_01v8", "nmos.core"), ("sky130_fd_pr__pfet_01v8", "pmos.core"),
    ("sky130_fd_pr__nfet_01v8_lvt", "nmos.lvt"), ("sky130_fd_pr__pfet_01v8_lvt", "pmos.lvt"),
    ("sky130_fd_pr__pfet_01v8_hvt", "pmos.hvt"), ("sky130_fd_pr__nfet_g5v0d10v5", "nmos.io"),
    ("sky130_fd_pr__pfet_g5v0d10v5", "pmos.io"), ("sky130_fd_pr__diode_pw2nd_05v5", "diode.core"),
    ("sky130_fd_pr__npn_05v5_w1p00l1p00", "bjt.npn"),
    ("sky130_fd_pr__pnp_05v5_w0p68l0p68", "bjt.pnp"),
    ("sky130_fd_pr__res_high_po", "resistor.poly"), ("sky130_fd_pr__cap_mim_m3_1", "cap.mim"),
    ("nfet_03v3", "nmos.core"), ("pfet_03v3", "pmos.core"), ("nfet_06v0", "nmos.io"),
    ("pfet_06v0", "pmos.io"), ("diode_nd2ps_03v3", "diode.core"), ("npn_10p00x10p00", "bjt.npn"),
    ("pnp_10p00x10p00", "bjt.pnp"), ("ppolyf_u", "resistor.poly"),
    ("cap_mim_2f0_m2m3_noshield", "cap.mim"), ("nmos_vtg", "nmos.core"), ("pmos_vtg", "pmos.core"),
    ("nmos_vtl", "nmos.lvt"), ("pmos_vtl", "pmos.lvt"), ("nmos_vth", "nmos.hvt"),
    ("pmos_vth", "pmos.hvt"), ("nmos_thkox", "nmos.io"), ("pmos_thkox", "pmos.io")]

theorem registeredModels_eq : (registry.flatMap Profile.deviceModels).map
    (fun entry => (lowerName entry.2, entry.1)) = registeredModels := by
  rfl

def registeredTokens : List (String × String) :=
  (extendedDeviceRoles.map fun role => (role, role)) ++
    registeredModels.filter fun entry => decide (entry.2 ∈ extendedDeviceRoles)

theorem foldlM_indexModel {entries : List (String × String)} {index : InsertionDict String String}
    (h : (index.keys ++ entries.map fun entry => lowerName entry.2).Nodup) :
    ∃ indexed, entries.foldlM indexModel index = .ok indexed ∧
      indexed.entries = index.entries ++ entries.map fun entry => (lowerName entry.2, entry.1) := by
  induction entries generalizing index with
  | nil => exact ⟨index, rfl, by simp⟩
  | cons entry rest ih =>
    have hfresh : lowerName entry.2 ∉ index.keys := by
      intro hmem
      exact (List.nodup_append.mp h).2.2 _ hmem _ (by simp) rfl
    have hnext : ((index.set (lowerName entry.2) entry.1).keys ++
        rest.map fun entry => lowerName entry.2).Nodup := by
      rw [InsertionDict.keys_set, if_neg hfresh]
      simpa using h
    obtain ⟨indexed, hindexed, hentries⟩ := ih hnext
    refine ⟨indexed, ?_, ?_⟩
    · rw [List.foldlM_cons, indexModel, InsertionDict.get?_eq_none_iff.mpr hfresh]
      exact hindexed
    · rw [hentries, InsertionDict.entries_set_of_notMem _ hfresh]
      simp

theorem registered_index : ∃ index, deviceRoleIndex = .ok index ∧
    index.entries = registeredModels := by
  have hkeys : (registeredModels.map Prod.fst).Nodup := by decide +kernel
  obtain ⟨index, hindex, hentries⟩ :=
    @foldlM_indexModel (registry.flatMap Profile.deviceModels) .empty (by
      rw [← registeredModels_eq, List.map_map] at hkeys
      exact hkeys)
  exact ⟨index, hindex, by rw [hentries, registeredModels_eq]; rfl⟩

theorem registered_tokens : ∃ tokens, extendedFamilyTokens = .ok tokens ∧
    tokens.entries = registeredTokens := by
  have hkeys : (registeredTokens.map Prod.fst).Nodup := by decide +kernel
  obtain ⟨index, hindex, hentries⟩ := registered_index
  refine ⟨_, by rw [extendedFamilyTokens, hindex]; rfl, ?_⟩
  have hroles : (InsertionDict.ofList (extendedDeviceRoles.map fun role => (role, role))).entries =
      extendedDeviceRoles.map fun role => (role, role) :=
    InsertionDict.entries_ofList (by decide)
  rw [InsertionDict.entries_foldl_set, hroles, hentries, registeredTokens]
  rw [InsertionDict.keys, hroles, hentries, ← List.map_append]
  exact hkeys

theorem registered_vocabulary : ∃ tokens index, extendedFamilyTokens = .ok tokens ∧
    deviceRoleIndex = .ok index ∧ Vocabulary tokens index := by
  obtain ⟨tokens, htokens, hlisted⟩ := registered_tokens
  obtain ⟨index, hindex, hentries⟩ := registered_index
  have hindexed {entry : String × String} (hentry : entry ∈ registeredModels)
      (hrole : entry.2 ∈ extendedDeviceRoles) : entry ∈ tokens.entries := by
    rw [hlisted]
    exact List.mem_append_right _ (List.mem_filter.mpr ⟨hentry, decide_eq_true hrole⟩)
  refine ⟨tokens, index, htokens, hindex, ?_, ?_, ?_, ?_⟩
  · rw [hlisted]
    decide +kernel
  · intro role hrole
    rw [hlisted]
    exact List.mem_append_left _ (List.mem_map_of_mem hrole)
  · intro binding hbinding entry hentry hrole
    refine hindexed ?_ hrole
    rw [← registeredModels_eq]
    exact List.mem_map_of_mem (List.mem_flatMap.mpr ⟨binding, hbinding, hentry⟩)
  · intro entry hentry hrole
    exact hindexed (hentries ▸ hentry) hrole

theorem scanDeckFamilies_eq (cases : CaseMap) (deck : List Char) : scanDeckFamilies cases deck =
    .ok (registeredTokens.foldl (fun found entry =>
      if entry.2 ∈ found then found
      else if findsToken entry.1.toList none (cases.lower deck) then insert entry.2 found
      else found) ∅) := by
  obtain ⟨tokens, htokens, hlisted⟩ := registered_tokens
  rw [scanDeckFamilies, htokens, Except.ok_bind, hlisted]

theorem eq_of_canonicalRole {spelling : String} (h : canonicalRole spelling ∈ extendedDeviceRoles) :
    canonicalRole spelling = spelling := by
  unfold canonicalRole at h ⊢
  split_ifs at h ⊢
  · exact absurd h (by decide)
  · exact absurd h (by decide)
  · rfl

theorem translateModel_token {cases : CaseMap} {model : List Char} {binding original : Profile}
    {tokens index : InsertionDict String String} (hindex : deviceRoleIndex = .ok index)
    (hvocabulary : Vocabulary tokens index) (hregistered : original ∈ registry)
    (hmodels : binding.deviceModels = original.deviceModels) {target role : String}
    {translated : Bool} (h : translateModel cases model binding = .ok (target, role, translated))
    (hrole : role ∈ extendedDeviceRoles) :
    (String.ofList (cases.lower model), role) ∈ tokens.entries := by
  obtain ⟨-, hroles, hnatives, hnamed⟩ := hvocabulary
  have hcanonical (hcanonical : canonicalRole (String.ofList (cases.lower model)) = role) :
      (String.ofList (cases.lower model), role) ∈ tokens.entries := by
    subst hcanonical
    have heq := eq_of_canonicalRole hrole
    rw [heq] at hrole ⊢
    exact hroles _ hrole
  unfold translateModel at h
  simp only at h
  split at h
  · obtain ⟨-, hrest⟩ := Prod.mk.inj (Except.ok.inj h)
    exact hcanonical (Prod.mk.inj hrest).1
  · split at h
    · rename_i native name hnative
      obtain ⟨-, hrest⟩ := Prod.mk.inj (Except.ok.inj h)
      obtain rfl := (Prod.mk.inj hrest).1
      obtain ⟨entry, hentry, hpair⟩ := List.mem_map.mp (InsertionDict.mem_of_get?_ofList hnative)
      obtain ⟨hlower, rfl⟩ := Prod.mk.inj hpair
      rw [← hlower]
      rw [hmodels] at hentry
      exact hnatives original hregistered _ hentry hrole
    · rw [hindex, Except.ok_bind] at h
      split at h
      · rename_i found hfound
        split at h
        · obtain ⟨-, hrest⟩ := Prod.mk.inj (Except.ok.inj h)
          obtain rfl := (Prod.mk.inj hrest).1
          cases hget : index.get? (String.ofList (cases.lower model)) with
          | some named =>
            rw [hget] at hfound
            obtain rfl := Option.some.inj hfound
            exact hnamed _ (InsertionDict.get?_eq_some_iff.mp hget) hrole
          | none =>
            rw [hget, Option.orElse_none] at hfound
            split_ifs at hfound
            exact hcanonical (Option.some.inj hfound)
        · cases h
      · cases h

end Vocabulary

section Gating

variable {cases : CaseMap} {alnum : Char → Bool} {rules : ParameterRules}

/-- What a rewritten card has in common with the line it was rewritten from: the line is no card of
a simulator command, and the model is a word of it that translates to the role. -/
structure NamedIn (cases : CaseMap) (binding : Profile) (line : List Char) (card : RewrittenCard) :
    Prop where
  head : (lstrip isSpace line).head? ≠ some '.'
  occurs : Occurs IsGap card.sourceModel line
  translates : ∃ target translated,
    translateModel cases card.sourceModel binding = .ok (target, card.role, translated)

theorem head_ne_period {line : List Char} {initials : List Char} {count : ℕ} {card : CardMatch}
    (h : matchCard initials count (splitCardCosmetics line).card = some card)
    (hinitials : (initials.all fun c => !isSpace c && decide (c ≠ '.')) = true) :
    (lstrip isSpace line).head? ≠ some '.' := by
  have hinitials : ∀ c ∈ initials, isSpace c = false ∧ c ≠ '.' := by
    simpa [List.all_eq_true] using hinitials
  obtain ⟨c, hc, hhead⟩ := head_of_matchCard h fun d hd => (hinitials d hd).1
  rw [hhead]
  exact fun hperiod => (hinitials c hc).2 (Option.some.inj hperiod)

theorem rewriteMosCard_named {line : List Char} {binding : Profile} {card : RewrittenCard}
    (h : rewriteMosCard cases rules line binding = .ok (some card)) :
    NamedIn cases binding line card := by
  unfold rewriteMosCard at h
  split at h
  · cases h
  · simp only at h
    split at h
    · split at h <;> cases h
    · rename_i parsed hparsed
      obtain ⟨⟨target, role, translated⟩, htranslate, h⟩ := Except.bind_eq_ok.mp h
      obtain ⟨parameters, -, h⟩ := Except.bind_eq_ok.mp h
      obtain rfl := Option.some.inj (Except.ok.inj h)
      exact ⟨head_ne_period hparsed (by decide), occurs_of_card (occurs_model hparsed), target,
        translated, htranslate⟩

theorem rewriteExtended_translates {parts : Cosmetics} {parsed : CardMatch} {binding : Profile}
    {card : RewrittenCard}
    (h : rewriteExtended cases rules parts parsed binding = .ok (some card)) :
    card.sourceModel = parsed.model ∧ ∃ target translated,
      translateModel cases card.sourceModel binding = .ok (target, card.role, translated) := by
  unfold rewriteExtended at h
  obtain ⟨⟨target, role, translated⟩, htranslate, h⟩ := Except.bind_eq_ok.mp h
  simp only at h
  split at h
  · cases h
  · obtain ⟨parameters, -, h⟩ := Except.bind_eq_ok.mp h
    obtain rfl := Option.some.inj (Except.ok.inj h)
    exact ⟨rfl, target, translated, htranslate⟩

theorem extendedCards_initials : ∀ kind ∈ extendedCards,
    ([kind.letter.toUpper, kind.letter].all fun c => !isSpace c && decide (c ≠ '.')) = true := by
  decide

theorem rewriteDeviceCard_named {line : List Char} {binding : Profile} {card : RewrittenCard}
    (h : rewriteDeviceCard cases rules line binding = .ok (some card)) :
    NamedIn cases binding line card := by
  unfold rewriteDeviceCard at h
  split at h
  · cases h
  · simp only at h
    split at h
    · cases h
    · rename_i kind hkind
      split at h
      · cases h
      · split at h
        · split at h <;> cases h
        · rename_i parsed hparsed
          split at h
          · split at h
            · obtain ⟨translated, -, h⟩ := Except.bind_eq_ok.mp h
              cases h
            · cases h
          · obtain ⟨hmodel, htranslate⟩ := rewriteExtended_translates h
            refine ⟨head_ne_period hparsed (extendedCards_initials kind ?_), ?_, htranslate⟩
            · exact List.mem_of_find?_eq_some hkind
            · rw [hmodel]
              exact occurs_of_card (occurs_model hparsed)

/-- A line whose card is rewritten is no save card, so its card is that of the line itself. -/
theorem bindLine_named {binding : Profile} {currents : List (List Char)} {line : List Char}
    {bound : BoundLine} {card : RewrittenCard}
    (h : bindLine cases alnum rules binding currents line = .ok bound)
    (hcard : bound.card? = some card) : NamedIn cases binding line card := by
  have hnamed : NamedIn cases binding
      (if currents = [] then line else extendSaveCard cases alnum currents line) card := by
    unfold bindLine at h
    obtain ⟨mos, hmos, h⟩ := Except.bind_eq_ok.mp h
    cases mos with
    | some rewritten =>
      obtain rfl := Except.ok.inj h
      obtain rfl := Option.some.inj hcard
      exact rewriteMosCard_named hmos
    | none =>
      obtain ⟨device, hdevice, h⟩ := Except.bind_eq_ok.mp h
      cases device with
      | some rewritten =>
        obtain rfl := Except.ok.inj h
        obtain rfl := Option.some.inj hcard
        exact rewriteDeviceCard_named hdevice
      | none =>
        obtain rfl := Except.ok.inj h
        cases hcard
  split at hnamed
  · exact hnamed
  · cases hsave : isSaveCard alnum line with
    | true => exact absurd (head_of_save hsave) hnamed.head
    | false =>
      rw [extendSaveCard, if_neg (by rw [hsave]; exact Bool.false_ne_true)] at hnamed
      exact hnamed

/-- The scan of the deck finds every extended role that one of its joined lines names. -/
theorem scan_finds_role {original binding : Profile} (hregistered : original ∈ registry)
    (hmodels : binding.deviceModels = original.deviceModels) {deck line : List Char}
    (hmerge : Unmerged deck) (hline : line ∈ splitKeeping (joinSpiceContinuations deck))
    {card : RewrittenCard} (hnamed : NamedIn cases binding line card)
    (hrole : card.role ∈ extendedDeviceRoles) :
    ∃ families, scanDeckFamilies cases deck = .ok families ∧ card.role ∈ families := by
  obtain ⟨tokens, index, htokens, hindex, hvocabulary⟩ := registered_vocabulary
  obtain ⟨target, translated, htranslate⟩ := hnamed.translates
  have hmem := translateModel_token hindex hvocabulary hregistered hmodels htranslate hrole
  obtain ⟨hne, hchars⟩ := hvocabulary.1 _ hmem
  rw [String.toList_ofList] at hne hchars
  have hchars := List.all_eq_true.mp hchars
  have hwords := word_of_token cases [] hchars
  have hword : card.sourceModel ≠ [] := by
    intro hnil
    rw [hnil] at hne
    exact hne rfl
  have hdeck := occurs_of_joined hmerge hword (fun c hc => (hwords c hc).2) hline hnamed.occurs
  refine ⟨_, by rw [scanDeckFamilies, htokens]; rfl, ?_⟩
  apply mem_scan
  right
  refine ⟨_, hmem, rfl, ?_⟩
  rw [String.toList_ofList]
  exact findsToken_of_occurs cases hchars hdeck

theorem registry_families : ∀ binding ∈ registry, ∀ entry ∈ binding.libraryEntries,
    ∀ other ∈ binding.libraryEntries, ∀ family ∈ entry.families, family ∈ other.families →
      entry.families = other.families := by
  decide +kernel

theorem mem_gated_of_captured {binding : Profile} (hregistered : binding ∈ registry)
    {used : Finset String} {role : String}
    (hcaptured : role ∈ extendedDeviceRoles.toFinset \ (taggedFamilies binding.libraryEntries \
      taggedFamilies (binding.libraryEntries.filter (loadsFor used))))
    {entry : LibraryEntry} (hentry : entry ∈ binding.libraryEntries)
    (hfamily : role ∈ entry.families) :
    entry ∈ binding.libraryEntries.filter (loadsFor used) := by
  have htagged {entries : List LibraryEntry} :
      role ∈ taggedFamilies entries ↔ ∃ entry ∈ entries, role ∈ entry.families := by
    rw [taggedFamilies, List.mem_toFinset, List.mem_flatMap]
  have hkept : role ∈ taggedFamilies (binding.libraryEntries.filter (loadsFor used)) := by
    by_contra hdropped
    exact (Finset.mem_sdiff.mp hcaptured).2
      (Finset.mem_sdiff.mpr ⟨htagged.mpr ⟨entry, hentry, hfamily⟩, hdropped⟩)
  obtain ⟨other, hother, hshared⟩ := htagged.mp hkept
  obtain ⟨hregisteredOther, hloads⟩ := List.mem_filter.mp hother
  refine List.mem_filter.mpr ⟨hentry, ?_⟩
  rw [loadsFor, registry_families binding hregistered entry hentry other hregisteredOther role
    hfamily hshared]
  exact hloads

/-- Where joining the continuations of a deck merges no two lines, a card bound against a gated
snapshot has every library entry of its family in it, and the scan finds every family a line of the
joined deck can be bound to. -/
theorem family_gating_sound {binding : Profile} (hregistered : binding ∈ registry)
    {gating deck : List Char} {snapshot : Snapshot}
    (hsnapshot : gateFamilies cases binding (some gating) = .ok snapshot)
    {rawName : Option (List Char)} {currents : Except BindFault (List (List Char))}
    {bound : BoundDeck}
    (hbind : bindDeck cases alnum rules snapshot deck rawName currents = .ok bound)
    (hmerge : Unmerged deck) :
    (∀ card ∈ bound.rewritten, card.role ∈ extendedDeviceRoles →
      ∀ entry ∈ binding.libraryEntries, card.role ∈ entry.families →
        entry ∈ snapshot.binding.libraryEntries) ∧
    ∃ families, scanDeckFamilies cases deck = .ok families ∧
      ∀ line ∈ splitKeeping (joinSpiceContinuations deck), ∀ card,
        rewriteDeviceCard cases rules line snapshot.binding = .ok (some card) →
          card.role ∈ extendedDeviceRoles → card.role ∈ families := by
  obtain ⟨used, hused, hgated⟩ := Except.bind_eq_ok.mp hsnapshot
  obtain rfl := Except.ok.inj hgated
  obtain ⟨families, hscan⟩ : ∃ families, scanDeckFamilies cases deck = .ok families := by
    exact ⟨_, scanDeckFamilies_eq cases deck⟩
  have hfinds {line : List Char} (hline : line ∈ splitKeeping (joinSpiceContinuations deck))
      {card : RewrittenCard} (hnamed : NamedIn cases
        { binding with libraryEntries := binding.libraryEntries.filter (loadsFor used) } line card)
      (hrole : card.role ∈ extendedDeviceRoles) : card.role ∈ families := by
    obtain ⟨found, hfound, hmem⟩ := scan_finds_role hregistered (by rfl) hmerge hline hnamed hrole
    rw [hscan] at hfound
    exact Except.ok.inj hfound ▸ hmem
  refine ⟨?_, families, hscan, fun line hline card hcard hrole =>
    hfinds hline (rewriteDeviceCard_named hcard) hrole⟩
  intro card hcard hrole entry hentry hfamily
  obtain ⟨hfamilies, kept, hbody⟩ := bindDeck_ok hbind
  obtain ⟨out, hout, hsome⟩ := List.mem_filterMap.mp hcard
  obtain ⟨line, hline, hrewritten⟩ := hbody out hout
  have hmem := hfinds (List.mem_of_mem_tail hline) (bindLine_named hrewritten hsome) hrole
  apply mem_gated_of_captured hregistered _ hentry hfamily
  by_contra hmissing
  unfold checkFamilies at hfamilies
  simp only at hfamilies
  rw [hscan, Except.ok_bind] at hfamilies
  split at hfamilies
  · rename_i hempty
    exact absurd (Finset.mem_sdiff.mpr ⟨hmem, hmissing⟩)
      (by rw [hempty]; exact Finset.notMem_empty _)
  · cases hfamilies

end Gating

def plainRules : ParameterRules where
  isSpiceNumber _ := false
  mos _ _ _ := .ok ⟨[], []⟩
  extended _ _ _ := .ok ⟨[], []⟩

def bipolarDeck : List Char := "t\nQ1 c b e s bjt.npn\n.end\n".toList

theorem bipolar_gating : ∃ snapshot bound,
    gateFamilies asciiCases ihpSg13g2 (some bipolarDeck) = .ok snapshot ∧
    bindDeck asciiCases Char.isAlphanum plainRules snapshot bipolarDeck none (.ok []) = .ok bound ∧
    bound.rewritten.length = 1 ∧
    ∀ card ∈ bound.rewritten, card.role ∈ extendedDeviceRoles →
      ∀ entry ∈ ihpSg13g2.libraryEntries, card.role ∈ entry.families →
        entry ∈ snapshot.binding.libraryEntries := by
  have hbinds : ((gateFamilies asciiCases ihpSg13g2 (some bipolarDeck)).toOption.any
      fun snapshot => (bindDeck asciiCases Char.isAlphanum plainRules snapshot bipolarDeck none
        (.ok [])).toOption.any fun bound => bound.rewritten.length = 1) = true := by
    simp only [gateFamilies, bindDeck, checkFamilies, scanDeckFamilies_eq]
    decide +kernel
  obtain ⟨snapshot, hsnapshot, hbinds⟩ := Except.exists_ok_of_any hbinds
  obtain ⟨bound, hbound, hlength⟩ := Except.exists_ok_of_any hbinds
  have hregistered : ihpSg13g2 ∈ registry := List.mem_cons_self ..
  have hmerge : Unmerged bipolarDeck := by decide +kernel
  exact ⟨snapshot, bound, hsnapshot, hbound, of_decide_eq_true hlength,
    (family_gating_sound hregistered hsnapshot hbound hmerge).1⟩

/-- A continuation ended by a vertical tab loses its end, and the next line completes the role it
stops in. -/
def splitRoleDeck : List Char := "t\nX\x0b+Q1 c b e s bjt.\x0bnpn\n.end\n".toList

theorem split_role_not_loaded : ¬ ∀ (cases : CaseMap) (alnum : Char → Bool)
    (rules : ParameterRules) (binding : Profile) (gating deck : List Char) (snapshot : Snapshot)
    (rawName : Option (List Char)) (currents : Except BindFault (List (List Char)))
    (bound : BoundDeck),
    binding ∈ registry → gateFamilies cases binding (some gating) = .ok snapshot →
    bindDeck cases alnum rules snapshot deck rawName currents = .ok bound →
    ∀ card ∈ bound.rewritten, card.role ∈ extendedDeviceRoles →
      ∀ entry ∈ binding.libraryEntries, card.role ∈ entry.families →
        entry ∈ snapshot.binding.libraryEntries := by
  intro hclaim
  have hbinds : ((gateFamilies asciiCases ihpSg13g2 (some "t\n".toList)).toOption.any
      fun snapshot => (bindDeck asciiCases Char.isAlphanum plainRules snapshot splitRoleDeck none
        (.ok [])).toOption.any fun bound => bound.rewritten.any fun card =>
          decide (card.role ∈ extendedDeviceRoles) &&
            ihpSg13g2.libraryEntries.any fun entry => decide (card.role ∈ entry.families) &&
              decide (entry ∉ snapshot.binding.libraryEntries)) = true := by
    simp only [gateFamilies, bindDeck, checkFamilies, scanDeckFamilies_eq]
    decide +kernel
  obtain ⟨snapshot, hsnapshot, hbinds⟩ := Except.exists_ok_of_any hbinds
  obtain ⟨bound, hbound, hcards⟩ := Except.exists_ok_of_any hbinds
  obtain ⟨card, hcard, hentries⟩ := List.any_eq_true.mp hcards
  obtain ⟨hrole, hentries⟩ := Bool.and_eq_true_iff.mp hentries
  obtain ⟨entry, hentry, hmissing⟩ := List.any_eq_true.mp hentries
  obtain ⟨hfamily, hmissing⟩ := Bool.and_eq_true_iff.mp hmissing
  exact of_decide_eq_true hmissing (hclaim asciiCases Char.isAlphanum plainRules ihpSg13g2
    "t\n".toList splitRoleDeck snapshot none (.ok []) bound (List.mem_cons_self ..) hsnapshot hbound
    card hcard (of_decide_eq_true hrole) entry hentry (of_decide_eq_true hfamily))

end OpenADA.Pdk

import Cheirizo.Sesman.IniSteps

/-!
# Session configurations that come back

The lines of a rendered file are the lines it was rendered as, so a configuration with plain strings
comes back if it has a form that can come back: with the variables of the default environment, and
with components, in the order of their names. The default configuration does.

## Main results

* `lines_flatMap` — the lines of the text
* `parse_render_iff` — exactly the normal configurations come back
* `parse_render_default` — so does the default one, as on any host with plain names
-/

namespace Cheirizo

namespace Sesman

namespace Ini

variable {t : Case.Tables} {host : HostEnv}

/-! ### The text -/

/-- The characters of a line. -/
def IsLineChar (c : Char) : Prop := IsPlain c ∨ c ∈ [',', ' ', '[', ']']

instance isLineCharDecidable : DecidablePred IsLineChar :=
  fun _ => inferInstanceAs (Decidable (_ ∨ _))

/-- A line has no line break if its key and its value have none. -/
theorem isLineChar_iniLine {key value : List Char} (hkey : ∀ c ∈ key, IsPlain c)
    (hvalue : ∀ c ∈ value, IsLineChar c) : ∀ c ∈ iniLine key value, IsLineChar c := by
  intro c hc
  rw [iniLine, List.mem_append, List.mem_cons] at hc
  obtain hc | rfl | hc := hc
  · exact Or.inl (hkey c hc)
  · exact Or.inl (by decide)
  · exact hvalue c hc

theorem isLineChar_keyLine {key : String} (hkey : IsKey key) {value : List Char}
    (hvalue : ∀ c ∈ value, IsPlain c) : ∀ c ∈ keyLine key value, IsLineChar c :=
  isLineChar_iniLine (fun _ hc => (of_isKey hkey hc).1) fun c hc => Or.inl (hvalue c hc)

theorem isLineChar_headerLine {name : List Char} (h : ∀ c ∈ name, IsPlain c) :
    ∀ c ∈ headerLine name, IsLineChar c := by
  intro c hc
  rw [headerLine, List.mem_cons, List.mem_append, List.mem_singleton] at hc
  obtain rfl | hc | rfl := hc
  · exact Or.inr (by decide)
  · exact Or.inl (h c hc)
  · exact Or.inr (by decide)

/-- Nor has a list of plain strings. -/
theorem isLineChar_formatIniList {xs : List (List Char)} (h : ∀ x ∈ xs, PlainText x) :
    ∀ c ∈ formatIniList xs, IsLineChar c := by
  have hparts : ∀ ys : List (List Char), (∀ y ∈ ys, PlainText y) →
      ∀ c ∈ List.intercalate [',', ' '] (ys.map formatIniScalar), IsLineChar c := by
    intro ys hys
    induction ys with
    | nil => exact fun c hc => absurd hc List.not_mem_nil
    | cons y ys ih =>
      intro c hc
      have hy := hys y List.mem_cons_self
      have hrest := ih fun z hz => hys z (List.mem_cons_of_mem _ hz)
      cases ys with
      | nil =>
        rw [List.map_singleton, List.intercalate_singleton, formatIniScalar_of_plainText hy] at hc
        exact Or.inl (hy.2 c hc)
      | cons z zs =>
        rw [List.map_cons, List.map_cons, List.intercalate_cons_cons, ← List.map_cons,
          formatIniScalar_of_plainText hy, List.mem_append, List.mem_append] at hc
        obtain (hc | hc) | hc := hc
        · exact Or.inl (hy.2 c hc)
        · exact Or.inr (by
            rw [List.mem_cons, List.mem_singleton] at hc
            obtain rfl | rfl := hc
            · decide
            · decide)
        · exact hrest c hc
  intro c hc
  rw [formatIniList, List.mem_cons, List.mem_append, List.mem_singleton] at hc
  obtain rfl | hc | rfl := hc
  · exact Or.inr (by decide)
  · exact hparts xs h c hc
  · exact Or.inr (by decide)

/-- The lines of a text are the lines it is made of. -/
theorem lines_flatMap {rawLines : List (List Char)}
    (h : ∀ rawLine ∈ rawLines, ∀ c ∈ rawLine, IsLineChar c) :
    Text.lines (rawLines.flatMap fun rawLine => rawLine ++ ['\n']) = rawLines := by
  have hnot : ∀ {c : Char}, IsLineChar c → c ≠ '\n' ∧ c ≠ '\r' := by
    intro c hc
    refine ⟨?_, ?_⟩
    · rintro rfl
      exact absurd hc (by decide)
    · rintro rfl
      exact absurd hc (by decide)
  induction rawLines with
  | nil => rfl
  | cons rawLine rawLines ih =>
    have hline := h rawLine List.mem_cons_self
    have hbreak : '\n' ∉ rawLine := fun hc => (hnot (hline _ hc)).1 rfl
    have hreturn : Text.stripCarriageReturn rawLine = rawLine := by
      rw [Text.stripCarriageReturn, if_neg]
      exact fun hlast => (hnot (hline _ (List.mem_of_getLast? hlast))).2 rfl
    rw [List.flatMap_cons, List.append_assoc, List.singleton_append, Text.lines_append hbreak,
      hreturn, ih fun rawLine' hmem => h rawLine' (List.mem_cons_of_mem _ hmem)]

theorem isLineChar_padded {key : String} (hkey : IsKey key) (n : ℕ) :
    ∀ c ∈ keyLine key (Text.padded 0 n), IsLineChar c :=
  isLineChar_keyLine hkey fun _ hc => isPlain_of_mem_padded hc

theorem isLineChar_list {key : String} (hkey : IsKey key) {xs : List (List Char)}
    (h : ∀ x ∈ xs, PlainText x) : ∀ c ∈ keyLine key (formatIniList xs), IsLineChar c :=
  isLineChar_iniLine (fun _ hc => (of_isKey hkey hc).1) (isLineChar_formatIniList h)

theorem isLineChar_header_key {name : String} (hname : IsKey name) :
    ∀ c ∈ headerLine name.toList, IsLineChar c :=
  isLineChar_headerLine fun _ hc => (of_isKey hname hc).1

theorem isLineChar_variableLines {env : BTreeMap (List Char)}
    (h : ∀ entry ∈ env.toList, PlainText entry.1 ∧ PlainText entry.2) :
    ∀ rawLine ∈ variableLines env, ∀ c ∈ rawLine, IsLineChar c := by
  intro rawLine hline
  obtain ⟨entry, hentry, rfl⟩ := List.mem_map.mp hline
  obtain ⟨hkey, hvalue⟩ := h entry hentry
  rw [formatIniScalar_of_plainText hvalue]
  exact isLineChar_iniLine hkey.2 fun c hc => Or.inl (hvalue.2 c hc)

/-- Nor has any line of a component. -/
theorem isLineChar_componentLines {component : ComponentConfig} (h : component.Plain) :
    ∀ rawLine ∈ componentLines component, ∀ c ∈ rawLine, IsLineChar c := by
  have hword : ∀ {key : String} {word : String}, IsKey key →
      word.toList.all (fun c => IsPlain c) = true →
      ∀ c ∈ keyLine key word.toList, IsLineChar c := fun hkey hall =>
    isLineChar_keyLine hkey fun c hc => of_decide_eq_true (List.all_eq_true.mp hall c hc)
  have hpaths : ∀ {key : String} {path : Option (List Char)}, IsKey key →
      (∀ p ∈ path, PlainText p) → ∀ rawLine ∈ path.toList.map (keyLine key),
        ∀ c ∈ rawLine, IsLineChar c := by
    intro key path hkey hpath rawLine hline
    obtain ⟨p, hp, rfl⟩ := List.mem_map.mp hline
    exact isLineChar_keyLine hkey (hpath p (Option.mem_toList.mp hp)).2
  have hreadiness : ∀ rawLine ∈ readinessLines component.readiness,
      ∀ c ∈ rawLine, IsLineChar c := by
    cases hcheck : component.readiness with
    | processAlive =>
      exact List.forall_mem_singleton.mpr (hword (by decide) (by decide))
    | none => exact List.forall_mem_singleton.mpr (hword (by decide) (by decide))
    | unixSocket path =>
      exact List.forall_mem_cons.mpr ⟨hword (by decide) (by decide), List.forall_mem_singleton.mpr
        (isLineChar_keyLine (by decide) (h.readiness path hcheck).2)⟩
  have hrequired : ∀ c ∈ keyLine "required"
      (if component.required then "true".toList else "false".toList), IsLineChar c := by
    cases component.required
    · exact hword (by decide) (by decide)
    · exact hword (by decide) (by decide)
  have henv : ∀ rawLine ∈ (if component.env.isEmpty then []
      else headerLine ("component_env:".toList ++ component.name) ::
        (variableLines component.env ++ [[]])), ∀ c ∈ rawLine, IsLineChar c := by
    split_ifs
    · exact fun _ h => absurd h List.not_mem_nil
    · refine List.forall_mem_cons.mpr
        ⟨isLineChar_headerLine (isPlain_append (by decide) h.name), ?_⟩
      exact List.forall_mem_append.mpr ⟨isLineChar_variableLines h.env, by simp⟩
  simp only [componentLines, List.forall_mem_append, List.forall_mem_cons]
  exact ⟨⟨⟨⟨⟨⟨isLineChar_headerLine (isPlain_append (by decide) h.name),
    isLineChar_keyLine (by decide) h.command.2, isLineChar_list (by decide) h.args, by simp⟩,
    hpaths (by decide) h.workingDir⟩, hpaths (by decide) h.logPath⟩, hreadiness⟩,
    hrequired, isLineChar_padded (by decide) _, by simp, by simp⟩, henv⟩

/-- Nor has any line of a rendered configuration, so that the text has no other lines. -/
theorem isLineChar_renderedLines {config : SesmanConfig} (h : config.Plain) :
    ∀ rawLine ∈ renderedLines config, ∀ c ∈ rawLine, IsLineChar c := by
  have hcomponents : ∀ rawLine ∈ config.components.flatMap componentLines,
      ∀ c ∈ rawLine, IsLineChar c := by
    intro rawLine hline
    obtain ⟨component, hcomponent, hmem⟩ := List.mem_flatMap.mp hline
    exact isLineChar_componentLines (h.components component hcomponent) rawLine hmem
  simp only [renderedLines, globalLines, sizeLines, environmentLines, cleanupLines,
    List.forall_mem_append, List.forall_mem_cons]
  exact ⟨⟨⟨⟨⟨isLineChar_header_key (by decide), isLineChar_keyLine (by decide) h.sessionName.2,
    isLineChar_keyLine (by decide) h.user.2, isLineChar_keyLine (by decide) h.xdgRuntimeDir.2,
    isLineChar_keyLine (by decide) h.stateDir.2, isLineChar_keyLine (by decide) h.logDir.2,
    isLineChar_padded (by decide) _, isLineChar_padded (by decide) _,
    isLineChar_padded (by decide) _, by simp, by simp⟩,
    isLineChar_header_key (by decide), isLineChar_padded (by decide) _,
    isLineChar_padded (by decide) _, by simp, by simp⟩,
    isLineChar_header_key (by decide), isLineChar_variableLines h.environment, by simp, by simp⟩,
    isLineChar_header_key (by decide), isLineChar_list (by decide) h.cleanupPaths,
    isLineChar_list (by decide) h.cleanupGlobs, by simp, by simp⟩, hcomponents⟩

/-! ### The round trip -/

/-- In the end the components are in the order of their names. -/
theorem finish_insertAll {config : SesmanConfig} {sectionName : List Char}
    {components : List ComponentConfig} (hne : components ≠ [])
    (hsorted : components.Pairwise fun a b => compare a.name b.name = .lt) :
    IniState.finish ⟨config, sectionName,
        OrderedMap.insertAll ∅ (components.map fun c => (c.name, c))⟩ =
      { config with components := components } := by
  have hlist := OrderedMap.toList_insertAll
    (List.pairwise_map.mpr hsorted : (components.map fun c => (c.name, c)).Pairwise _)
  have hempty : (OrderedMap.insertAll ∅ (components.map fun c => (c.name, c))).isEmpty ≠ true := by
    rw [← Std.ExtTreeMap.isEmpty_toList, hlist, List.isEmpty_map]
    exact fun hnil => hne (List.isEmpty_iff.mp hnil)
  rw [IniState.finish, if_neg hempty, hlist, List.map_map]
  exact congrArg _ (List.map_id components)

/-- The lines of the sections follow one another, and each does its part. -/
theorem parse_render_of_normal {config : SesmanConfig} (hplain : config.Plain)
    (hlower : ∀ component ∈ config.components, t.toLowercase component.name = component.name)
    (h : Normal t host config) : parseSesmanIni t host (renderSesmanIni config) = .ok config := by
  have hdistinct : (config.components.map ComponentConfig.name).Nodup := by
    refine List.pairwise_map.mpr (h.sorted.imp fun {a b} hlt heq => ?_)
    rw [heq, Std.ReflOrd.compare_self] at hlt
    cases hlt
  have hnames : ∀ c ∈ config.components, ¬ "component:".toList <+: c.name := fun c hc =>
    h.names c hc (hplain.components c hc).command.1
  have hfixed : Steps t (.initial host) (globalLines config ++ sizeLines config.defaultSize ++
      environmentLines config.environment ++ cleanupLines config)
      ⟨{ config with components := defaultComponents host }, "cleanup".toList, ∅⟩ :=
    (((Steps.globals hplain (.initial host)).append (Steps.defaultSize config.defaultSize _)).append
      (Steps.environment hplain h.keys _ h.environment)).append (Steps.cleanup hplain _)
  obtain ⟨sectionName, hcomponents⟩ := Steps.components hplain.components hlower hnames h.envNames
    h.envKeys hdistinct ⟨{ config with components := defaultComponents host }, "cleanup".toList, ∅⟩
    fun _ _ => Std.ExtTreeMap.not_mem_empty
  rw [parseSesmanIni, renderSesmanIni, lines_flatMap (isLineChar_renderedLines hplain),
    renderedLines, (hfixed.append hcomponents) 1]
  exact congrArg Except.ok (finish_insertAll h.components_ne h.sorted)

/-- **The round trip.** A configuration with plain strings and lower-case component names is read
back exactly if it is normal. -/
theorem parse_render_iff (t : Case.Tables) (host : HostEnv) (config : SesmanConfig)
    (hplain : config.Plain)
    (hlower : ∀ component ∈ config.components, t.toLowercase component.name = component.name) :
    parseSesmanIni t host (renderSesmanIni config) = .ok config ↔ Normal t host config :=
  ⟨normal_of_parse, parse_render_of_normal hplain hlower⟩

/-! ### The default configuration -/

/-- A host whose answers are plain. -/
structure HostEnv.Plain (host : HostEnv) : Prop where
  effectiveUser : ∃ user ∈ host.effectiveUser, PlainText user
  xdgRuntimeDir : ∀ dir ∈ host.xdgRuntimeDir, PlainText dir
  wlrRenderer : ∀ renderer ∈ host.wlrRenderer, PlainText renderer
  renderDrmDevice : ∀ device ∈ host.renderDrmDevice, PlainText device

/-- A word is plain if its characters are, which is decided for the words of the program. -/
theorem plainText_of_all {word : String}
    (h : (!word.toList.isEmpty && word.toList.all fun c => IsPlain c) = true) :
    PlainText word.toList := by
  rw [Bool.and_eq_true, Bool.not_eq_true', List.isEmpty_eq_false_iff] at h
  exact ⟨h.1, fun c hc => of_decide_eq_true (List.all_eq_true.mp h.2 c hc)⟩

theorem plainText_append {first second : List Char} (hfirst : PlainText first)
    (hsecond : ∀ c ∈ second, IsPlain c) : PlainText (first ++ second) :=
  ⟨List.append_ne_nil_of_left_ne_nil hfirst.1 _,
    List.forall_mem_append.mpr ⟨hfirst.2, hsecond⟩⟩

/-- A path of plain parts is plain. -/
theorem plainText_join {dir name : List Char} (hdir : PlainText dir) (hname : PlainText name) :
    PlainText (Path.join dir name) := by
  rw [Path.join]
  split_ifs
  · exact plainText_append hdir hname.2
  · exact plainText_append hdir (List.forall_mem_cons.mpr ⟨by decide, hname.2⟩)

theorem plainText_getD {value : Option (List Char)} {word : List Char}
    (hvalue : ∀ v ∈ value, PlainText v) (hword : PlainText word) :
    PlainText (value.getD word) := by
  cases value with
  | none => exact hword
  | some v => exact hvalue v rfl

theorem plainText_getD_of_mem {value : Option (List Char)} {v : List Char} (h : v ∈ value)
    (hv : PlainText v) : PlainText (value.getD []) := by
  rwa [Option.mem_def.mp h, Option.getD_some]

/-- The variables of the default environment are those of the host, or fixed. -/
theorem plain_defaultVariables {host : HostEnv} (h : host.Plain) :
    ∀ entry ∈ defaultVariables host, PlainText entry.1 ∧ PlainText entry.2 := by
  simp only [defaultVariables, List.forall_mem_cons]
  refine ⟨⟨?_, ?_⟩, ⟨?_, ?_⟩, ⟨?_, ?_⟩, ⟨?_, ?_⟩, ⟨?_, plainText_getD h.wlrRenderer ?_⟩,
    ⟨?_, plainText_getD h.renderDrmDevice ?_⟩, ⟨?_, ?_⟩, ⟨?_, ?_⟩, ⟨?_, ?_⟩, ⟨?_, ?_⟩,
    fun _ hnil => absurd hnil List.not_mem_nil⟩
  all_goals exact plainText_of_all (by decide +kernel)

/-- The default environment has no other variables. -/
theorem mem_of_mem_defaultEnvironment {entry : List Char × List Char}
    (h : entry ∈ (defaultEnvironment host).toList) : entry ∈ defaultVariables host := by
  have hinsert : defaultEnvironment host = OrderedMap.insertAll ∅ (defaultVariables host) :=
    Std.ExtTreeMap.ofList_eq_foldl
  rw [hinsert] at h
  exact OrderedMap.mem_of_mem_insertAll h

/-- On a host with plain names the default configuration is plain. -/
theorem plain_default {host : HostEnv} (h : host.Plain) : (SesmanConfig.default host).Plain := by
  obtain ⟨user, huser, hplain⟩ := h.effectiveUser
  have hruntime : PlainText (defaultXdgRuntimeDir host) := by
    refine plainText_getD h.xdgRuntimeDir (plainText_append (plainText_append ?_ ?_) ?_)
    · exact plainText_of_all (by decide +kernel)
    · exact fun c hc => isPlain_of_mem_padded hc
    · exact (plainText_of_all (by decide +kernel)).2
  have hbelow : ∀ {name : String},
      (!name.toList.isEmpty && name.toList.all fun c => IsPlain c) = true →
      PlainText (Path.join (defaultXdgRuntimeDir host) name.toList) :=
    fun hname => plainText_join hruntime (plainText_of_all hname)
  have hcomponent : ∀ component ∈ defaultComponents host, component.Plain := by
    refine List.forall_mem_singleton.mpr ⟨plainText_of_all (by decide +kernel),
      plainText_of_all (by decide +kernel), ?_, ?_, nofun, nofun, ?_⟩
    · exact List.forall_mem_cons.mpr ⟨plainText_of_all (by decide +kernel),
        List.forall_mem_singleton.mpr (plainText_of_all (by decide +kernel))⟩
    · intro entry hentry
      have hget := Std.ExtTreeMap.mem_toList_iff_getElem?_eq_some.mp hentry
      exact absurd (hget.symm.trans Std.ExtTreeMap.getElem?_empty) (Option.some_ne_none _)
    · rintro path hpath
      cases hpath
      exact hbelow (by decide +kernel)
  refine ⟨plainText_of_all (by decide +kernel), ?_, hruntime, hbelow (by decide +kernel),
    hbelow (by decide +kernel), fun entry hentry => ?_, ?_, nofun, hcomponent⟩
  · exact plainText_getD_of_mem huser hplain
  · exact plain_defaultVariables h entry (mem_of_mem_defaultEnvironment hentry)
  · exact List.forall_mem_cons.mpr ⟨hbelow (by decide +kernel),
      List.forall_mem_singleton.mpr (hbelow (by decide +kernel))⟩

/-- The default configuration has its own variables, and components in order. -/
theorem normal_default : Normal t host (.default host) := by
  have hfinish : (IniState.initial host).finish = .default host := if_pos rfl
  exact hfinish ▸ invariant_initial.finish

/-- The names of the default components are in lower case. -/
theorem toLowercase_defaultComponents :
    ∀ component ∈ defaultComponents host, t.toLowercase component.name = component.name := by
  have hascii : "wrdp-compositor".toList.all (fun c => c.toNat < 128 && !c.isUpper) = true := by
    decide +kernel
  refine List.forall_mem_singleton.mpr (Case.Tables.toLowercase_of_ascii fun c hc => ?_)
  simpa using List.all_eq_true.mp hascii c hc

/-- The default file says what is the default without a file. -/
theorem parse_render_default (h : host.Plain) :
    parseSesmanIni t host (renderSesmanIni (.default host)) = .ok (.default host) :=
  parse_render_of_normal (plain_default h) toLowercase_defaultComponents normal_default

/-! ### The order of components -/

/-- A host without any of the variables that the defaults look at. -/
def joesHost : HostEnv where
  effectiveUid := 1000
  effectiveUser := some "joe".toList
  xdgRuntimeDir := none
  wlrRenderer := none
  renderDrmDevice := none

theorem plain_joesHost : joesHost.Plain where
  effectiveUser := ⟨"joe".toList, rfl, plainText_of_all (by decide)⟩
  xdgRuntimeDir := nofun
  wlrRenderer := nofun
  renderDrmDevice := nofun

theorem parse_render_iff_default :
    parseSesmanIni .ascii joesHost (renderSesmanIni (.default joesHost)) =
      .ok (.default joesHost) :=
  (parse_render_iff .ascii joesHost (.default joesHost) (plain_default plain_joesHost)
    toLowercase_defaultComponents).mpr normal_default

/-- A configuration that starts a bar after the shell it is to sit in. -/
def shellAndBar : SesmanConfig :=
  { SesmanConfig.default joesHost with
    components := [{ emptyComponent "shell".toList with command := "/usr/bin/shell".toList },
      { emptyComponent "bar".toList with command := "/usr/bin/bar".toList }] }

/-- It does not come back, although its strings are plain, the names of its components distinct and
in lower case and those of its variables in upper case: components come back by name. -/
theorem not_parse_render_order :
    shellAndBar.Plain ∧ (shellAndBar.components.map ComponentConfig.name).Nodup ∧
      (∀ component ∈ shellAndBar.components,
        Case.Tables.ascii.toLowercase component.name = component.name) ∧
      (∀ name ∈ shellAndBar.environment, Case.Tables.ascii.toUppercase name = name) ∧
      ∀ config, parseSesmanIni .ascii joesHost (renderSesmanIni shellAndBar) = .ok config →
        config.components ≠ shellAndBar.components := by
  have hplain := plain_default plain_joesHost
  have hcomponent : ∀ {name command : String},
      (!name.toList.isEmpty && name.toList.all fun c => IsPlain c) = true →
      (!command.toList.isEmpty && command.toList.all fun c => IsPlain c) = true →
      { emptyComponent name.toList with command := command.toList }.Plain := by
    intro name command hname hcommand
    refine ⟨plainText_of_all hname, plainText_of_all hcommand, nofun, ?_, nofun, nofun, nofun⟩
    intro entry hentry
    have hget := Std.ExtTreeMap.mem_toList_iff_getElem?_eq_some.mp hentry
    exact absurd (hget.symm.trans Std.ExtTreeMap.getElem?_empty) (Option.some_ne_none _)
  refine ⟨?_, by decide +kernel, ?_, ?_, ?_⟩
  · exact { hplain with
      components := List.forall_mem_cons.mpr ⟨hcomponent (by decide +kernel) (by decide +kernel),
        List.forall_mem_singleton.mpr (hcomponent (by decide +kernel) (by decide +kernel))⟩ }
  · exact List.forall_mem_cons.mpr ⟨by decide +kernel, List.forall_mem_singleton.mpr
      (by decide +kernel)⟩
  · have hupper : ((defaultVariables joesHost).map Prod.fst).all
        (fun name => Case.Tables.ascii.toUppercase name == name) = true := by decide +kernel
    intro name hname
    exact eq_of_beq (List.all_eq_true.mp hupper name (mem_defaultEnvironment.mp hname))
  · intro config hparse heq
    have hsorted := (normal_of_parse hparse).sorted
    rw [heq] at hsorted
    have hlt := List.rel_of_pairwise_cons hsorted List.mem_cons_self
    exact absurd hlt (by decide +kernel)

end Ini

end Sesman

end Cheirizo

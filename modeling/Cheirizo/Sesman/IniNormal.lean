import Cheirizo.Sesman.IniFile

/-!
# What a session configuration file can say

Whatever a file says, what is read from it has at least one component, and unless they are the
default ones they are in the order of their names; it has every variable of the default environment;
and the names of its variables are in upper case, as far as they come back when they are put in
lower and then in upper case again. A component section never gives a name that begins with the mark
of a component section, as all its copies are stripped, and likewise for the section of its
environment.

## Main definitions

* `Normal` — configurations like that
* `Invariant` — what holds after every line

## Main results

* `normal_of_parse` — what is read is normal
-/

namespace Cheirizo

namespace Sesman

namespace Ini

variable {t : Case.Tables} {host : HostEnv}

/-! ### Keys -/

/-- The name of a variable that is read as it is written. -/
def Folded (t : Case.Tables) (key : List Char) : Prop :=
  '=' ∉ key ∧ t.toUppercase (t.toLowercase key) = key

theorem folded_toUppercase {key : List Char} (h : '=' ∉ key) :
    Folded t (t.toUppercase (t.toLowercase key)) := by
  have hkey := Case.Tables.toUppercase_toLowercase (t := t) key
  refine ⟨?_, ?_⟩
  · rw [hkey]
    exact Case.Tables.notMem_flatMap_fold (by decide) (by decide) h
  · rw [hkey, Case.Tables.toUppercase_toLowercase, Case.Tables.flatMap_fold_fold]

theorem folded_of_ascii {key : List Char}
    (h : ∀ c ∈ key, c.toNat < 128 ∧ c.isLower = false ∧ c ≠ '=') : Folded t key := by
  refine ⟨fun hequals => (h _ hequals).2.2 rfl, ?_⟩
  rw [Case.Tables.toUppercase_toLowercase]
  exact Case.Tables.flatMap_fold_of_ascii fun c hc => ⟨(h c hc).1, (h c hc).2.1⟩

theorem mem_defaultEnvironment {key : List Char} :
    key ∈ defaultEnvironment host ↔ key ∈ (defaultVariables host).map Prod.fst := by
  rw [defaultEnvironment, Std.ExtTreeMap.mem_ofList, List.contains_iff_mem]

/-- The names of the default variables are ASCII. -/
theorem folded_of_mem_default {key : List Char} (h : key ∈ defaultEnvironment host) :
    Folded t key := by
  have hascii : ((defaultVariables host).map Prod.fst).all (fun name => name.all fun c =>
      c.toNat < 128 && !c.isLower && c != '=') = true := by
    simp only [defaultVariables, List.map_cons, List.map_nil]
    decide +kernel
  have hkey := List.all_eq_true.mp hascii key (mem_defaultEnvironment.mp h)
  exact folded_of_ascii fun c hc => by simpa [and_assoc] using List.all_eq_true.mp hkey c hc

/-! ### Normal configurations -/

/-- What a configuration has to be for the text to give it back: its components sorted and under
usable names, its keys in lower case. -/
structure Normal (t : Case.Tables) (host : HostEnv) (config : SesmanConfig) : Prop where
  components_ne : config.components ≠ []
  sorted : config.components.Pairwise fun a b => compare a.name b.name = .lt
  names : ∀ component ∈ config.components, component.command ≠ [] →
    ¬ "component:".toList <+: component.name
  envNames : ∀ component ∈ config.components, component.env ≠ ∅ →
    ¬ "component_env:".toList <+: component.name
  environment : ∀ key ∈ defaultEnvironment host, key ∈ config.environment
  keys : ∀ key ∈ config.environment, Folded t key
  envKeys : ∀ component ∈ config.components, ∀ key ∈ component.env, Folded t key

/-! ### The invariant -/

/-- What holds of a component that has been read under a name. -/
structure EntryInvariant (t : Case.Tables) (name : List Char) (component : ComponentConfig) :
    Prop where
  name_eq : component.name = name
  command : component.command ≠ [] → ¬ "component:".toList <+: name
  env : component.env ≠ ∅ → ¬ "component_env:".toList <+: name
  keys : ∀ key ∈ component.env, Folded t key

/-- What every line of a rendered configuration keeps while it is read back. -/
structure Invariant (t : Case.Tables) (host : HostEnv) (state : IniState) : Prop where
  components : state.config.components = defaultComponents host
  environment : ∀ key ∈ defaultEnvironment host, key ∈ state.config.environment
  keys : ∀ key ∈ state.config.environment, Folded t key
  entries : ∀ name component, state.components[name]? = some component →
    EntryInvariant t name component

theorem invariant_initial : Invariant t host (.initial host) where
  components := rfl
  environment _ h := h
  keys _ h := folded_of_mem_default h
  entries name component h := by
    rw [IniState.initial, Std.ExtTreeMap.getElem?_empty] at h
    cases h

theorem exists_ok_of_map {α β : Type} {x : Except String α} {f : α → β} {b : β}
    (h : x.map f = .ok b) : ∃ a, x = .ok a ∧ f a = b := by
  cases x with
  | error e => cases h
  | ok a => exact ⟨a, rfl, Except.ok.inj h⟩

/-- A key of the global section changes neither the environment nor the components. -/
theorem applySesmanGlobal_frame {config config' : SesmanConfig} {key value : List Char}
    {lineNumber : ℕ} (h : applySesmanGlobal config key value lineNumber = .ok config') :
    config'.environment = config.environment ∧ config'.components = config.components := by
  rw [applySesmanGlobal] at h
  split_ifs at h
  iterate 5
    · cases h
      exact ⟨rfl, rfl⟩
  iterate 3
    · obtain ⟨n, -, rfl⟩ := exists_ok_of_map h
      exact ⟨rfl, rfl⟩

theorem applyCleanup_frame {config config' : SesmanConfig} {key value : List Char}
    {lineNumber : ℕ} (h : applyCleanup config key value lineNumber = .ok config') :
    config'.environment = config.environment ∧ config'.components = config.components := by
  rw [applyCleanup] at h
  split_ifs at h
  iterate 2
    · cases h
      exact ⟨rfl, rfl⟩

/-- A key of a component changes neither its name nor its environment. -/
theorem applyComponentKey_frame {component component' : ComponentConfig} {key value : List Char}
    {lineNumber : ℕ} (h : applyComponentKey component key value lineNumber = .ok component') :
    component'.name = component.name ∧ component'.env = component.env := by
  rw [applyComponentKey] at h
  split_ifs at h
  iterate 4
    · cases h
      exact ⟨rfl, rfl⟩
  · obtain ⟨check, -, rfl⟩ := exists_ok_of_map h
    exact ⟨rfl, rfl⟩
  · cases h
    exact ⟨rfl, rfl⟩
  iterate 2
    · obtain ⟨n, -, rfl⟩ := exists_ok_of_map h
      exact ⟨rfl, rfl⟩

theorem Invariant.entry {state : IniState} (h : Invariant t host state) (name : List Char) :
    EntryInvariant t name (state.entry name) := by
  rw [IniState.entry]
  cases hentry : state.components[name]? with
  | some component => exact h.entries name component hentry
  | none =>
    exact ⟨rfl, fun hcommand => absurd rfl hcommand, fun henv => absurd rfl henv,
      fun key hkey => absurd hkey Std.ExtTreeMap.not_mem_empty⟩

theorem Invariant.setEntry {state : IniState} (h : Invariant t host state) {name : List Char}
    {component : ComponentConfig} (hcomponent : EntryInvariant t name component) :
    Invariant t host (state.setEntry name component) where
  components := h.components
  environment := h.environment
  keys := h.keys
  entries other component' hother := by
    rw [IniState.setEntry, Std.ExtTreeMap.getElem?_insert] at hother
    split_ifs at hother with hname
    · cases hother
      rwa [← Std.LawfulEqOrd.eq_of_compare hname]
    · exact h.entries other component' hother

theorem Invariant.setConfig {state : IniState} (h : Invariant t host state) {config : SesmanConfig}
    (hconfig : config.environment = state.config.environment ∧
      config.components = state.config.components) :
    Invariant t host { state with config := config } where
  components := hconfig.2.trans h.components
  environment := hconfig.1 ▸ h.environment
  keys := hconfig.1 ▸ h.keys
  entries := h.entries

theorem Invariant.applyEntry {state state' : IniState} (hstate : Invariant t host state)
    {key value : List Char} (hkey : '=' ∉ key) {lineNumber : ℕ}
    (h : Ini.applyEntry t state (t.toLowercase key) value lineNumber = .ok state') :
    Invariant t host state' := by
  rw [Ini.applyEntry] at h
  split_ifs at h with hglobals hsize henvironment hcleanup hcomponent hcomponentEnv
  · obtain ⟨config, hconfig, rfl⟩ := exists_ok_of_map h
    exact hstate.setConfig (applySesmanGlobal_frame hconfig)
  · obtain ⟨size, -, rfl⟩ := exists_ok_of_map h
    exact hstate.setConfig ⟨rfl, rfl⟩
  · cases h
    refine ⟨hstate.components, fun other hother => ?_, fun other hother => ?_, hstate.entries⟩
    · exact Std.ExtTreeMap.mem_insert.mpr (Or.inr (hstate.environment other hother))
    · obtain heq | hother := Std.ExtTreeMap.mem_insert.mp hother
      · rw [← Std.LawfulEqOrd.eq_of_compare heq]
        exact folded_toUppercase hkey
      · exact hstate.keys other hother
  · obtain ⟨config, hconfig, rfl⟩ := exists_ok_of_map h
    exact hstate.setConfig (applyCleanup_frame hconfig)
  · obtain ⟨component, happly, rfl⟩ := exists_ok_of_map h
    have hentry := hstate.entry (Text.trimStartMatches "component:".toList state.sectionName)
    obtain ⟨hname, henv⟩ := applyComponentKey_frame happly
    refine hstate.setEntry ⟨hname.trans hentry.name_eq, fun _ => ?_, ?_, ?_⟩
    · exact Text.not_prefix_trimStartMatches (by decide) _
    · rw [henv]
      exact hentry.env
    · rw [henv]
      exact hentry.keys
  · cases h
    have hentry := hstate.entry (Text.trimStartMatches "component_env:".toList state.sectionName)
    refine hstate.setEntry ⟨hentry.name_eq, hentry.command, fun _ => ?_, fun other hother => ?_⟩
    · exact Text.not_prefix_trimStartMatches (by decide) _
    · obtain heq | hother := Std.ExtTreeMap.mem_insert.mp hother
      · rw [← Std.LawfulEqOrd.eq_of_compare heq]
        exact folded_toUppercase hkey
      · exact hentry.keys other hother

/-- The key of a line ends before the first equals sign. -/
theorem equals_notMem_of_parseIniLine {rawLine key value : List Char}
    (h : parseIniLine rawLine = .entry key value) : '=' ∉ key := by
  rw [parseIniLine] at h
  split_ifs at h with hblank
  cases hbrackets : Config.between '[' ']' (Text.trim (stripIniComment rawLine)) with
  | some name =>
    rw [hbrackets] at h
    cases h
  | none =>
    rw [hbrackets] at h
    cases hsplit : Text.splitOnce '=' (Text.trim (stripIniComment rawLine)) with
    | none =>
      rw [hsplit] at h
      cases h
    | some parts =>
      rw [hsplit] at h
      cases h
      exact fun hmem => Text.notMem_of_splitOnce hsplit ((Text.trim_sublist parts.1).subset hmem)

/-- What a line preserves. -/
theorem Invariant.parseLine {state state' : IniState} (hstate : Invariant t host state)
    {lineNumber : ℕ} {rawLine : List Char}
    (h : Ini.parseLine t lineNumber state rawLine = .ok state') : Invariant t host state' := by
  rw [Ini.parseLine] at h
  cases hline : parseIniLine rawLine with
  | blank =>
    rw [hline] at h
    cases h
    exact hstate
  | «section» name =>
    rw [hline] at h
    cases h
    exact ⟨hstate.components, hstate.environment, hstate.keys, hstate.entries⟩
  | entry key value =>
    rw [hline] at h
    exact hstate.applyEntry (equals_notMem_of_parseIniLine hline) h
  | invalid =>
    rw [hline] at h
    cases h

/-- What any number of lines preserve. -/
theorem Invariant.parseLines {state state' : IniState} (hstate : Invariant t host state)
    {lineNumber : ℕ} {rawLines : List (List Char)}
    (h : Ini.parseLines t lineNumber state rawLines = .ok state') : Invariant t host state' := by
  induction rawLines generalizing lineNumber state with
  | nil =>
    cases h
    exact hstate
  | cons rawLine rest ih =>
    rw [Ini.parseLines] at h
    cases hline : Ini.parseLine t lineNumber state rawLine with
    | ok next =>
      rw [hline] at h
      exact ih (hstate.parseLine hline) h
    | error e =>
      rw [hline] at h
      cases h

/-- In the end the default components are there, or each component under its own name. -/
theorem Invariant.finish {state : IniState} (h : Invariant t host state) :
    Normal t host state.finish := by
  rw [IniState.finish]
  split_ifs with hempty
  · have hall : ∀ component ∈ state.config.components, component.env = ∅ ∧
        ¬ "component:".toList <+: component.name := by
      rw [h.components]
      intro component hcomponent
      have hname : ¬ "component:".toList <+: "wrdp-compositor".toList := by decide
      obtain rfl := List.mem_singleton.mp hcomponent
      exact ⟨rfl, hname⟩
    refine ⟨?_, ?_, fun component hcomponent _ => (hall component hcomponent).2,
      fun component hcomponent henv => absurd (hall component hcomponent).1 henv,
      h.environment, h.keys, fun component hcomponent key hkey => ?_⟩
    · rw [h.components]
      exact List.cons_ne_nil _ _
    · rw [h.components]
      exact List.pairwise_singleton _ _
    · rw [(hall component hcomponent).1] at hkey
      exact absurd hkey Std.ExtTreeMap.not_mem_empty
  · have hentry : ∀ entry ∈ state.components.toList, EntryInvariant t entry.1 entry.2 :=
      fun entry hentry =>
        h.entries entry.1 entry.2 (Std.ExtTreeMap.mem_toList_iff_getElem?_eq_some.mp hentry)
    have hall : ∀ component ∈ state.components.toList.map Prod.snd,
        EntryInvariant t component.name component := by
      intro component hcomponent
      obtain ⟨entry, hmem, rfl⟩ := List.mem_map.mp hcomponent
      rw [(hentry entry hmem).name_eq]
      exact hentry entry hmem
    refine ⟨fun hnil => hempty ?_, ?_,
      fun component hcomponent => (hall component hcomponent).command,
      fun component hcomponent => (hall component hcomponent).env, h.environment, h.keys,
      fun component hcomponent => (hall component hcomponent).keys⟩
    · rw [← Std.ExtTreeMap.isEmpty_toList]
      exact List.isEmpty_iff.mpr (List.map_eq_nil_iff.mp hnil)
    · refine List.pairwise_map.mpr (Std.ExtTreeMap.ordered_keys_toList.imp_of_mem ?_)
      intro a b ha hb hlt
      rwa [(hentry a ha).name_eq, (hentry b hb).name_eq]

/-- **Normal form.** What is read from a file is normal. -/
theorem normal_of_parse {content : List Char} {config : SesmanConfig}
    (h : parseSesmanIni t host content = .ok config) : Normal t host config := by
  obtain ⟨state, hstate, rfl⟩ := exists_ok_of_map h
  exact (invariant_initial.parseLines hstate).finish

end Ini

end Sesman

end Cheirizo

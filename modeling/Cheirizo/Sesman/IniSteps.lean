import Cheirizo.Lib.OrderedMap
import Cheirizo.Sesman.IniNormal

/-!
# Lines that are read as they were written

A configuration whose strings are plain, that is not empty and without white space, quotes, commas,
brackets and comment signs, is written without quotes, and every line is read as it was written. The
lines of a section lead from what has been read before it to that with the section's values in it,
wherever in a file they stand.

## How lines are put together

`Steps` relates what was read before some lines to what was read after them. It composes along the
lines, so a section is read line by line in the order in which it is written, and the sections in
theirs. A line is read in the same way wherever it stands: its number is only for errors, and so
every statement is about all of them.

## Main definitions

* `PlainText`, `SesmanConfig.Plain` — plain strings
* `Steps` — what a run of lines does to what has been read so far

## Main results

* `Steps.globals`, `Steps.defaultSize`, `Steps.environment`, `Steps.cleanup`, `Steps.components` —
  what the lines of each section do
-/

namespace Cheirizo

namespace Sesman

namespace Ini

variable {t : Case.Tables} {host : HostEnv}

/-! ### Plain strings -/

/-- A string that is written as it is and read back as it was. -/
def PlainText (cs : List Char) : Prop := cs ≠ [] ∧ ∀ c ∈ cs, IsPlain c

/-- Every string of a component is plain. -/
structure ComponentConfig.Plain (component : ComponentConfig) : Prop where
  name : PlainText component.name
  command : PlainText component.command
  args : ∀ arg ∈ component.args, PlainText arg
  env : ∀ entry ∈ component.env.toList, PlainText entry.1 ∧ PlainText entry.2
  workingDir : ∀ path ∈ component.workingDir, PlainText path
  logPath : ∀ path ∈ component.logPath, PlainText path
  readiness : ∀ path, component.readiness = .unixSocket path → PlainText path

/-- Every string of a configuration is plain. -/
structure SesmanConfig.Plain (config : SesmanConfig) : Prop where
  sessionName : PlainText config.sessionName
  user : PlainText config.user
  xdgRuntimeDir : PlainText config.xdgRuntimeDir
  stateDir : PlainText config.stateDir
  logDir : PlainText config.logDir
  environment : ∀ entry ∈ config.environment.toList, PlainText entry.1 ∧ PlainText entry.2
  cleanupPaths : ∀ path ∈ config.cleanupPaths, PlainText path
  cleanupGlobs : ∀ glob ∈ config.cleanupGlobs, PlainText glob
  components : ∀ component ∈ config.components, component.Plain

/-- Nothing is trimmed from a plain text. -/
theorem trim_of_isPlain {cs : List Char} (h : ∀ c ∈ cs, IsPlain c) : Text.trim cs = cs :=
  Text.trim_eq_self fun c hc => (h c hc).1

theorem not_isPlain_quote {quote : Char} (h : quote ∈ ['"', '\'']) : ¬ IsPlain quote := by
  obtain rfl | rfl : quote = '"' ∨ quote = '\'' := by simpa using h
  · decide
  · decide

/-- A plain string is written without quotes. -/
theorem needsQuotes_of_plainText {cs : List Char} (h : PlainText cs) : needsQuotes cs = false := by
  have hnot : ∀ {d : Char}, ¬ IsPlain d → cs.contains d = false := by
    intro d hd
    rw [← Bool.not_eq_true, List.contains_iff_mem]
    exact fun hmem => hd (h.2 d hmem)
  have hwhite : cs.any Text.isWhitespace = false :=
    List.any_eq_false.mpr fun c hc => Bool.eq_false_iff.mp (h.2 c hc).1
  have hempty : cs.isEmpty = false := by simpa using h.1
  rw [needsQuotes, hempty, hnot (by decide), hnot (by decide), hnot (by decide), hwhite]
  rfl

theorem keepsQuotes_of_plainText {cs : List Char} (h : PlainText cs) : KeepsQuotes cs := by
  rw [KeepsQuotes, if_neg (Bool.eq_false_iff.mp (needsQuotes_of_plainText h))]
  rintro quote hquote inner rfl
  exact not_isPlain_quote hquote (h.2 quote List.mem_cons_self)

/-- A plain string is written as it is. -/
theorem formatIniScalar_of_plainText {cs : List Char} (h : PlainText cs) :
    formatIniScalar cs = cs := by
  rw [formatIniScalar, if_neg (Bool.eq_false_iff.mp (needsQuotes_of_plainText h))]

/-- A plain text has no quotes that could be taken off. -/
theorem unquoteIniScalar_of_isPlain {cs : List Char} (h : ∀ c ∈ cs, IsPlain c) :
    unquoteIniScalar cs = cs := by
  refine (unquoteIniScalar_eq_self_iff (trim_of_isPlain h)).mpr ?_
  rintro quote hquote inner rfl
  exact not_isPlain_quote hquote (h quote List.mem_cons_self)

/-! ### Lines -/

/-- A line of plain texts is read as the entry it was written for. The key may not have an equals
sign, at which the line is cut; the value may. -/
theorem parseIniLine_of_isPlain {key value : List Char} (hkey : ∀ c ∈ key, IsPlain c)
    (hequals : '=' ∉ key) (hvalue : ∀ c ∈ value, IsPlain c) :
    parseIniLine (iniLine key value) = .entry key value := by
  have hhides : Hides Quotes.closed true (iniLine key value) := by
    refine hides_of_forall (fun c hc => ?_) _ _
    rw [iniLine, List.mem_append, List.mem_cons] at hc
    obtain hc | rfl | hc := hc
    · exact (hkey c hc).not_isCommentSign
    · rfl
    · exact (hvalue c hc).not_isCommentSign
  rw [parseIniLine_iniLine hkey hequals (trim_of_isPlain hvalue)
    (fun c hc => (hvalue c (List.mem_of_getLast? hc)).1) hhides, unquoteIniScalar_of_isPlain hvalue]

/-- The same of a line whose value is a list. -/
theorem parseIniLine_list {key : List Char} (hkey : ∀ c ∈ key, IsPlain c) (hequals : '=' ∉ key)
    {xs : List (List Char)} (hxs : ∀ x ∈ xs, PlainText x) :
    parseIniLine (iniLine key (formatIniList xs)) = .entry key (formatIniList xs) := by
  have hhides : Hides Quotes.closed true (iniLine key (formatIniList xs)) := by
    refine (hides_iniLine hkey fun x hx => keepsQuotes_of_plainText (hxs x hx)).mpr ?_
    rintro ys x zs rfl before white sign rest rfl hwhite hsign
    have hplain := (hxs (before ++ white :: sign :: rest) (by simp)).2 sign (by simp)
    exact absurd (hsign.symm.trans hplain.not_isCommentSign) Bool.false_ne_true.symm
  obtain ⟨htrim, hlast⟩ := formatIniList_ends xs
  rw [parseIniLine_iniLine hkey hequals htrim hlast hhides, unquoteIniScalar_formatIniList]

/-- A list of plain strings is read as it was written. -/
theorem parseIniList_of_plainText {xs : List (List Char)} (hxs : ∀ x ∈ xs, PlainText x) :
    parseIniList (formatIniList xs) = xs := by
  have hcommas : ∀ x ∈ xs, ',' ∉ x := fun x hx hcomma =>
    absurd ((hxs x hx).2 ',' hcomma) (by decide)
  rw [parseIniList_formatIniList hcommas]
  conv_rhs => rw [← List.map_id xs]
  refine List.map_congr_left fun x hx => ?_
  exact (unquoteIniScalar_formatIniScalar_iff x).mpr (keepsQuotes_of_plainText (hxs x hx))

/-- A plain name in brackets is read as a section. -/
theorem parseIniLine_headerLine {name : List Char} (h : ∀ c ∈ name, IsPlain c) :
    parseIniLine (headerLine name) = .section name := by
  have hsigns : ∀ c ∈ headerLine name, isCommentSign c = false := by
    intro c hc
    rw [headerLine, List.mem_cons, List.mem_append, List.mem_singleton] at hc
    obtain rfl | hc | rfl := hc
    · rfl
    · exact (h c hc).not_isCommentSign
    · rfl
  have hline : Text.trim (stripIniComment (headerLine name)) = headerLine name := by
    rw [stripIniComment_of_hides (hides_of_forall hsigns _ _)]
    exact Text.trim_of_ends _ (by decide) (by decide)
  have hne : headerLine name ≠ [] := List.cons_ne_nil _ _
  rw [parseIniLine, hline, if_neg hne, headerLine, Config.between_append]
  simp only
  rw [trim_of_isPlain h]

/-! ### Keys -/

/-- A key of the program's own. -/
def IsKey (key : String) : Prop := key.toList.all (fun c => c.isLower || c = '_') = true

instance isKeyDecidable : DecidablePred IsKey := fun _ => inferInstanceAs (Decidable (_ = true))

/-- What a key consists of. -/
theorem of_isKey {key : String} (h : IsKey key) {c : Char} (hc : c ∈ key.toList) :
    IsPlain c ∧ c ≠ '=' ∧ c.toNat < 128 ∧ c.isUpper = false := by
  have hlower := List.all_eq_true.mp h c hc
  have hascii : c.toNat < 128 := by
    rw [Bool.or_eq_true, decide_eq_true_eq] at hlower
    obtain hlower | rfl := hlower
    · delta Char.isLower at hlower
      rw [Bool.and_eq_true, decide_eq_true_eq, decide_eq_true_eq] at hlower
      have hle : c.toNat ≤ 'z'.toNat := hlower.2
      have hz : 'z'.toNat = 122 := rfl
      omega
    · decide
  have hall := Case.Tables.of_ascii (p := fun c => (c.isLower || c = '_') = true →
    IsPlain c ∧ c ≠ '=' ∧ c.isUpper = false) (by decide) hascii hlower
  exact ⟨hall.1, hall.2.1, hascii, hall.2.2⟩

/-- The reader folds the case of a key, which changes nothing. -/
theorem toLowercase_of_isKey {key : String} (h : IsKey key) :
    t.toLowercase key.toList = key.toList :=
  Case.Tables.toLowercase_of_ascii fun _ hc => (of_isKey h hc).2.2

theorem isPlain_of_mem_padded {width n : ℕ} {c : Char} (h : c ∈ Text.padded width n) :
    IsPlain c := by
  have hdigit := Text.isDigit_of_mem_padded h
  have hascii : c.toNat < 128 := by
    rw [Char.isDigit, Bool.and_eq_true, decide_eq_true_eq, decide_eq_true_eq] at hdigit
    have hle : c.toNat ≤ '9'.toNat := hdigit.2
    have hnine : '9'.toNat = 57 := rfl
    omega
  exact Case.Tables.of_ascii (p := fun c => c.isDigit = true → IsPlain c) (by decide) hascii hdigit

/-- A number is read as it was written, without leading zeros. -/
theorem parseIniU64_padded (n : UInt64) (lineNumber : ℕ) (key : List Char) :
    parseIniU64 (Text.padded 0 n.toNat) lineNumber key = .ok n := by
  rw [parseIniU64, parseIniNumber, Text.parseUnsigned_padded n.toNat_lt]
  exact congrArg Except.ok (UInt64.ofNat_toNat (x := n))

theorem parseIniU32_padded (n : UInt32) (lineNumber : ℕ) (key : List Char) :
    parseIniU32 (Text.padded 0 n.toNat) lineNumber key = .ok n := by
  rw [parseIniU32, parseIniNumber, Text.parseUnsigned_padded n.toNat_lt]
  exact congrArg Except.ok (UInt32.ofNat_toNat (x := n))

/-! ### One line -/

section OneLine

variable (lineNumber : ℕ) (state : IniState)

theorem parseLine_blank : parseLine t lineNumber state [] = .ok state := rfl

/-- A header opens its section, whatever has been read before. -/
theorem parseLine_headerLine {name : List Char} (hplain : ∀ c ∈ name, IsPlain c)
    (hlower : t.toLowercase name = name) :
    parseLine t lineNumber state (headerLine name) = .ok { state with sectionName := name } := by
  rw [parseLine, parseIniLine_headerLine hplain]
  simp only
  rw [hlower]

theorem parseLine_header_key {name : String} (hname : IsKey name) :
    parseLine t lineNumber state (headerLine name.toList) =
      .ok { state with sectionName := name.toList } :=
  parseLine_headerLine lineNumber state (fun _ hc => (of_isKey hname hc).1)
    (toLowercase_of_isKey hname)

/-- A line of a known key applies its entry to what has been read. -/
theorem parseLine_keyLine {key : String} (hkey : IsKey key) {value : List Char}
    (hvalue : ∀ c ∈ value, IsPlain c) :
    parseLine t lineNumber state (keyLine key value) =
      applyEntry t state key.toList value lineNumber := by
  rw [parseLine, keyLine, parseIniLine_of_isPlain (fun _ hc => (of_isKey hkey hc).1)
    (fun hequals => (of_isKey hkey hequals).2.1 rfl) hvalue]
  simp only
  rw [toLowercase_of_isKey hkey]

/-- The same of a list. -/
theorem parseLine_keyLine_list {key : String} (hkey : IsKey key) {xs : List (List Char)}
    (hxs : ∀ x ∈ xs, PlainText x) :
    parseLine t lineNumber state (keyLine key (formatIniList xs)) =
      applyEntry t state key.toList (formatIniList xs) lineNumber := by
  rw [parseLine, keyLine, parseIniLine_list (fun _ hc => (of_isKey hkey hc).1)
    (fun hequals => (of_isKey hkey hequals).2.1 rfl) hxs]
  simp only
  rw [toLowercase_of_isKey hkey]

/-- The name of a variable is folded before it is applied, as every key is. -/
theorem parseLine_variable {key value : List Char} (hkey : PlainText key) (hequals : '=' ∉ key)
    (hvalue : PlainText value) :
    parseLine t lineNumber state (iniLine key (formatIniScalar value)) =
      applyEntry t state (t.toLowercase key) value lineNumber := by
  rw [parseLine, formatIniScalar_of_plainText hvalue,
    parseIniLine_of_isPlain hkey.2 hequals hvalue.2]

end OneLine

/-! ### Runs of lines -/

/-- The lines lead from one state to another, wherever in a file they stand. -/
def Steps (t : Case.Tables) (state : IniState) (rawLines : List (List Char)) (state' : IniState) :
    Prop :=
  ∀ lineNumber, parseLines t lineNumber state rawLines = .ok state'

namespace Steps

variable {state next state' : IniState} {rawLine : List Char} {rest : List (List Char)}

/-- No lines change nothing. -/
theorem nil (state : IniState) : Steps t state [] state := fun _ => rfl

/-- One line, and then the rest. -/
theorem cons (hline : ∀ lineNumber, parseLine t lineNumber state rawLine = .ok next)
    (hrest : Steps t next rest state') : Steps t state (rawLine :: rest) state' := by
  intro lineNumber
  rw [parseLines, hline lineNumber]
  exact hrest (lineNumber + 1)

/-- Runs of lines compose. -/
theorem append {first : List (List Char)} (hfirst : Steps t state first next)
    (hrest : Steps t next rest state') : Steps t state (first ++ rest) state' := by
  intro lineNumber
  have hlines := hfirst lineNumber
  clear hfirst
  induction first generalizing lineNumber state with
  | nil =>
    cases hlines
    exact hrest lineNumber
  | cons rawLine first ih =>
    rw [parseLines] at hlines
    rw [List.cons_append, parseLines]
    cases hline : parseLine t lineNumber state rawLine with
    | ok between =>
      rw [hline] at hlines
      exact ih (lineNumber + 1) hlines
    | error e =>
      rw [hline] at hlines
      cases hlines

/-- A line of a known key, and then the rest. -/
theorem key {name : String} {value : List Char} (next : IniState) (hname : IsKey name)
    (hvalue : ∀ c ∈ value, IsPlain c)
    (happly : ∀ lineNumber, applyEntry t state name.toList value lineNumber = .ok next)
    (hrest : Steps t next rest state') : Steps t state (keyLine name value :: rest) state' :=
  cons (fun lineNumber =>
    (parseLine_keyLine lineNumber state hname hvalue).trans (happly lineNumber)) hrest

/-- A line of a known key whose value is a list, and then the rest. -/
theorem keyList {name : String} {xs : List (List Char)} (next : IniState) (hname : IsKey name)
    (hxs : ∀ x ∈ xs, PlainText x)
    (happly : ∀ lineNumber,
      applyEntry t state name.toList (formatIniList xs) lineNumber = .ok next)
    (hrest : Steps t next rest state') :
    Steps t state (keyLine name (formatIniList xs) :: rest) state' :=
  cons (fun lineNumber =>
    (parseLine_keyLine_list lineNumber state hname hxs).trans (happly lineNumber)) hrest

/-- A key of the global section. -/
theorem global {key : String} {value : List Char} (set : SesmanConfig → SesmanConfig)
    (hsection : state.sectionName = "globals".toList) (hkey : IsKey key)
    (hvalue : ∀ c ∈ value, IsPlain c)
    (happly : ∀ lineNumber, applySesmanGlobal state.config key.toList value lineNumber =
      .ok (set state.config))
    (hrest : Steps t { state with config := set state.config } rest state') :
    Steps t state (keyLine key value :: rest) state' := by
  refine Steps.key _ hkey hvalue (fun lineNumber => ?_) hrest
  rw [applyEntry, if_pos hsection, happly lineNumber]
  rfl

/-- The lines before the first section set the options of the manager. -/
theorem globals {config : SesmanConfig} (h : config.Plain) (state : IniState) :
    Steps t state (globalLines config)
      { state with
        sectionName := "globals".toList
        config := { state.config with
          sessionName := config.sessionName
          user := config.user
          xdgRuntimeDir := config.xdgRuntimeDir
          stateDir := config.stateDir
          logDir := config.logDir
          startTimeoutMs := config.startTimeoutMs
          stopTimeoutMs := config.stopTimeoutMs
          idleTimeoutMs := config.idleTimeoutMs } } := by
  have hnumber : ∀ (n : UInt64), ∀ c ∈ Text.padded 0 n.toNat, IsPlain c :=
    fun n c hc => isPlain_of_mem_padded hc
  refine cons (fun n => parseLine_header_key n state (by decide)) ?_
  refine global (fun c => { c with sessionName := config.sessionName }) rfl (by decide)
    h.sessionName.2 (fun n => by simp [applySesmanGlobal]) ?_
  refine global (fun c => { c with user := config.user }) rfl (by decide)
    h.user.2 (fun n => by simp [applySesmanGlobal]) ?_
  refine global (fun c => { c with xdgRuntimeDir := config.xdgRuntimeDir }) rfl (by decide)
    h.xdgRuntimeDir.2 (fun n => by simp [applySesmanGlobal]) ?_
  refine global (fun c => { c with stateDir := config.stateDir }) rfl (by decide)
    h.stateDir.2 (fun n => by simp [applySesmanGlobal]) ?_
  refine global (fun c => { c with logDir := config.logDir }) rfl (by decide)
    h.logDir.2 (fun n => by simp [applySesmanGlobal]) ?_
  refine global (fun c => { c with startTimeoutMs := config.startTimeoutMs }) rfl (by decide)
    (hnumber _) (fun n => by simp [applySesmanGlobal, parseIniU64_padded, Except.map]) ?_
  refine global (fun c => { c with stopTimeoutMs := config.stopTimeoutMs }) rfl (by decide)
    (hnumber _) (fun n => by simp [applySesmanGlobal, parseIniU64_padded, Except.map]) ?_
  refine global (fun c => { c with idleTimeoutMs := config.idleTimeoutMs }) rfl (by decide)
    (hnumber _) (fun n => by simp [applySesmanGlobal, parseIniU64_padded, Except.map]) ?_
  exact cons (fun n => parseLine_blank n _) (nil _)

/-- The lines of the size set its two numbers. -/
theorem defaultSize (size : SessionSize) (state : IniState) :
    Steps t state (sizeLines size)
      { state with
        sectionName := "default_size".toList
        config := { state.config with defaultSize := size } } := by
  have hnumber : ∀ (n : UInt32), ∀ c ∈ Text.padded 0 n.toNat, IsPlain c :=
    fun n c hc => isPlain_of_mem_padded hc
  refine cons (fun n => parseLine_header_key n state (by decide)) ?_
  refine key { state with
      sectionName := "default_size".toList
      config := { state.config with defaultSize := ⟨size.width, state.config.defaultSize.height⟩ } }
    (by decide) (hnumber _)
    (fun n => by simp [applyEntry, applyDefaultSize, parseIniU32_padded, Except.map]) ?_
  refine key { state with
      sectionName := "default_size".toList
      config := { state.config with defaultSize := size } } (by decide) (hnumber _)
    (fun n => by simp [applyEntry, applyDefaultSize, parseIniU32_padded, Except.map]) ?_
  exact cons (fun n => parseLine_blank n _) (nil _)

/-- The lines of the cleanup set its patterns. -/
theorem cleanup {config : SesmanConfig} (h : config.Plain) (state : IniState) :
    Steps t state (cleanupLines config)
      { state with
        sectionName := "cleanup".toList
        config := { state.config with
          cleanupPaths := config.cleanupPaths
          cleanupGlobs := config.cleanupGlobs } } := by
  refine cons (fun n => parseLine_header_key n state (by decide)) ?_
  refine keyList { state with
      sectionName := "cleanup".toList
      config := { state.config with cleanupPaths := config.cleanupPaths } } (by decide)
    h.cleanupPaths (fun n => by
      simp [applyEntry, applyCleanup, parseIniList_of_plainText h.cleanupPaths, Except.map]) ?_
  refine keyList { state with
      sectionName := "cleanup".toList
      config := { state.config with
        cleanupPaths := config.cleanupPaths
        cleanupGlobs := config.cleanupGlobs } } (by decide) h.cleanupGlobs (fun n => by
      simp [applyEntry, applyCleanup, parseIniList_of_plainText h.cleanupGlobs, Except.map]) ?_
  exact cons (fun n => parseLine_blank n _) (nil _)

/-- The variables of a section, which are put into some map. -/
theorem insertAll {entries : List (List Char × List Char)}
    (h : ∀ entry ∈ entries, PlainText entry.1 ∧ PlainText entry.2 ∧ Folded t entry.1)
    (put : BTreeMap (List Char) → IniState)
    (hput : ∀ m key value lineNumber, applyEntry t (put m) key value lineNumber =
      .ok (put (m.insert (t.toUppercase key) value))) (m : BTreeMap (List Char)) :
    Steps t (put m) (entries.map fun entry => iniLine entry.1 (formatIniScalar entry.2))
      (put (OrderedMap.insertAll m entries)) := by
  induction entries generalizing m with
  | nil => exact nil _
  | cons entry entries ih =>
    obtain ⟨hkey, hvalue, hfolded⟩ := h entry List.mem_cons_self
    refine cons (fun lineNumber => ?_)
      (ih (fun e he => h e (List.mem_cons_of_mem _ he)) (m.insert entry.1 entry.2))
    rw [parseLine_variable lineNumber _ hkey hfolded.1 hvalue, hput, hfolded.2]

/-- What is known of a variable's entry in a plain configuration. -/
theorem folded_entries {env : BTreeMap (List Char)}
    (h : ∀ entry ∈ env.toList, PlainText entry.1 ∧ PlainText entry.2)
    (hfolded : ∀ name ∈ env, Folded t name) :
    ∀ entry ∈ env.toList, PlainText entry.1 ∧ PlainText entry.2 ∧ Folded t entry.1 := by
  intro entry hentry
  obtain ⟨hkey, hvalue⟩ := h entry hentry
  refine ⟨hkey, hvalue, hfolded entry.1 ?_⟩
  rw [← Std.ExtTreeMap.mem_keys, ← Std.ExtTreeMap.map_fst_toList_eq_keys]
  exact List.mem_map_of_mem hentry

/-- The lines of the environment add its variables. Those already there must be among them, since a
line can only add to the map or overwrite in it. -/
theorem environment {config : SesmanConfig} (h : config.Plain)
    (hfolded : ∀ name ∈ config.environment, Folded t name) (state : IniState)
    (hkeys : ∀ name ∈ state.config.environment, name ∈ config.environment) :
    Steps t state (environmentLines config.environment)
      { state with
        sectionName := "environment".toList
        config := { state.config with environment := config.environment } } := by
  have hlines := insertAll (folded_entries h.environment hfolded) (fun m => { state with
      sectionName := "environment".toList
      config := { state.config with environment := m } })
    (fun m key value n => by simp [applyEntry]) state.config.environment
  rw [OrderedMap.insertAll_toList hkeys] at hlines
  refine cons (fun n => parseLine_header_key n state (by decide)) ?_
  exact hlines.append (cons (fun n => parseLine_blank n _) (nil _))

end Steps

/-! ### Components -/

/-- The later of two values of one component stands. -/
theorem setEntry_setEntry (state : IniState) (name : List Char)
    (component component' : ComponentConfig) :
    (state.setEntry name component).setEntry name component' = state.setEntry name component' := by
  have hcomponents : (state.components.insert name component).insert name component' =
      state.components.insert name component' := by
    refine Std.ExtTreeMap.ext_getElem? fun k => ?_
    simp only [Std.ExtTreeMap.getElem?_insert]
    split_ifs <;> rfl
  rw [IniState.setEntry, IniState.setEntry, IniState.setEntry, hcomponents]

/-- A component is found as it was set. -/
theorem entry_setEntry (state : IniState) (name : List Char) (component : ComponentConfig) :
    (state.setEntry name component).entry name = component := by
  rw [IniState.entry, IniState.setEntry, Std.ExtTreeMap.getElem?_insert_self, Option.getD_some]

/-- A section with a prefix of its own is none of the others. -/
theorem ne_of_append {p name other : List Char} (h : p.isPrefixOf other = false) :
    p ++ name ≠ other := by
  rintro rfl
  rw [List.isPrefixOf_iff_prefix.mpr (List.prefix_append p name)] at h
  cases h

/-- In the section of a component an entry applies to that component alone. -/
theorem applyEntry_component {state : IniState} {name : List Char}
    (hsection : state.sectionName = "component:".toList ++ name)
    (hname : ¬ "component:".toList <+: name) (key value : List Char) (lineNumber : ℕ) :
    applyEntry t state key value lineNumber =
      (applyComponentKey (state.entry name) key value lineNumber).map (state.setEntry name) := by
  have hprefix : "component:".toList.isPrefixOf ("component:".toList ++ name) = true :=
    List.isPrefixOf_iff_prefix.mpr (List.prefix_append _ _)
  have htrim : Text.trimStartMatches "component:".toList ("component:".toList ++ name) = name := by
    rw [Text.trimStartMatches_append (by decide), Text.trimStartMatches_of_not_isPrefix hname]
  rw [applyEntry, hsection, if_neg (ne_of_append (by decide)), if_neg (ne_of_append (by decide)),
    if_neg (ne_of_append (by decide)), if_neg (ne_of_append (by decide)), if_pos hprefix, htrim]

/-- In the section of a component's environment an entry is one of its variables. -/
theorem applyEntry_componentEnv {state : IniState} {name : List Char}
    (hsection : state.sectionName = "component_env:".toList ++ name)
    (hname : ¬ "component_env:".toList <+: name) (key value : List Char) (lineNumber : ℕ) :
    applyEntry t state key value lineNumber =
      .ok (state.setEntry name { state.entry name with
        env := (state.entry name).env.insert (t.toUppercase key) value }) := by
  have hprefix : "component_env:".toList.isPrefixOf ("component_env:".toList ++ name) = true :=
    List.isPrefixOf_iff_prefix.mpr (List.prefix_append _ _)
  have hnot : ¬ "component:".toList.isPrefixOf ("component_env:".toList ++ name) = true := by
    rw [List.isPrefixOf_iff_prefix]
    intro h
    have hshort := List.prefix_of_prefix_length_le h (List.prefix_append _ _) (by decide)
    exact absurd hshort (by decide)
  have htrim : Text.trimStartMatches "component_env:".toList ("component_env:".toList ++ name) =
      name := by
    rw [Text.trimStartMatches_append (by decide), Text.trimStartMatches_of_not_isPrefix hname]
  rw [applyEntry, hsection, if_neg (ne_of_append (by decide)), if_neg (ne_of_append (by decide)),
    if_neg (ne_of_append (by decide)), if_neg (ne_of_append (by decide)), if_neg hnot,
    if_pos hprefix, htrim]

/-- A plain path is not empty, and so is not read as none. -/
theorem nonemptyPath_of_plainText {path : List Char} (h : PlainText path) :
    nonemptyPath path = some path := by
  rw [nonemptyPath, trim_of_isPlain h.2, if_neg h.1]

theorem isPlain_append {p : String} (hp : p.toList.all (fun c => IsPlain c) = true)
    {name : List Char} (h : PlainText name) : ∀ c ∈ p.toList ++ name, IsPlain c := by
  intro c hc
  obtain hc | hc := List.mem_append.mp hc
  · exact of_decide_eq_true (List.all_eq_true.mp hp c hc)
  · exact h.2 c hc

theorem toLowercase_append {p : String}
    (hp : p.toList.all (fun c => c.toNat < 128 && !c.isUpper) = true) {name : List Char}
    (h : t.toLowercase name = name) : t.toLowercase (p.toList ++ name) = p.toList ++ name :=
  Case.Tables.toLowercase_append
    (fun c hc => by simpa using List.all_eq_true.mp hp c hc) h

namespace Steps

variable {rest : List (List Char)} {state' : IniState}

/-- A key of a component, some of which has been read. -/
theorem componentKey {base : IniState} {name rawLine value : List Char} {key : String}
    {component : ComponentConfig} (set : ComponentConfig → ComponentConfig)
    (hsection : base.sectionName = "component:".toList ++ name)
    (hname : ¬ "component:".toList <+: name)
    (hline : ∀ lineNumber state, parseLine t lineNumber state rawLine =
      applyEntry t state key.toList value lineNumber)
    (happly : ∀ lineNumber, applyComponentKey component key.toList value lineNumber =
      .ok (set component))
    (hrest : Steps t (base.setEntry name (set component)) rest state') :
    Steps t (base.setEntry name component) (rawLine :: rest) state' := by
  refine cons (fun lineNumber => ?_) hrest
  have hsection' : (base.setEntry name component).sectionName = "component:".toList ++ name :=
    hsection
  rw [hline, applyEntry_component hsection' hname, entry_setEntry, happly]
  exact congrArg Except.ok (setEntry_setEntry base name component _)

section Component

variable {component : ComponentConfig} (h : component.Plain) {base : IniState}
  (hsection : base.sectionName = "component:".toList ++ component.name)
  (hname : ¬ "component:".toList <+: component.name)

include h hsection hname

/-- The two paths of a component, each of which may be left out. -/
theorem componentPaths (c : ComponentConfig) (hdir : c.workingDir = none)
    (hlog : c.logPath = none) :
    Steps t (base.setEntry component.name c)
      (component.workingDir.toList.map (keyLine "working_dir") ++
        component.logPath.toList.map (keyLine "log_path"))
      (base.setEntry component.name
        { c with workingDir := component.workingDir, logPath := component.logPath }) := by
  have hdirLines : Steps t (base.setEntry component.name c)
      (component.workingDir.toList.map (keyLine "working_dir"))
      (base.setEntry component.name { c with workingDir := component.workingDir }) := by
    cases hpath : component.workingDir with
    | none =>
      have hself : { c with workingDir := none } = c := by rw [← hdir]
      rw [hself]
      exact nil _
    | some path =>
      have hplain := h.workingDir path hpath
      exact componentKey (fun c => { c with workingDir := some path }) hsection hname
        (fun n state => parseLine_keyLine n state (by decide) hplain.2)
        (fun n => by simp [applyComponentKey, nonemptyPath_of_plainText hplain]) (nil _)
  have hlogLines : Steps t
      (base.setEntry component.name { c with workingDir := component.workingDir })
      (component.logPath.toList.map (keyLine "log_path"))
      (base.setEntry component.name
        { c with workingDir := component.workingDir, logPath := component.logPath }) := by
    cases hpath : component.logPath with
    | none =>
      have hself : { c with workingDir := component.workingDir, logPath := none } =
          { c with workingDir := component.workingDir } := by rw [← hlog]
      rw [hself]
      exact nil _
    | some path =>
      have hplain := h.logPath path hpath
      exact componentKey (fun c => { c with logPath := some path }) hsection hname
        (fun n state => parseLine_keyLine n state (by decide) hplain.2)
        (fun n => by simp [applyComponentKey, nonemptyPath_of_plainText hplain]) (nil _)
  exact hdirLines.append hlogLines

/-- The lines of a component's readiness, one case for each kind. -/
theorem componentReadiness (c : ComponentConfig) :
    Steps t (base.setEntry component.name c) (readinessLines component.readiness)
      (base.setEntry component.name { c with readiness := component.readiness }) := by
  have hword : ∀ {word : String}, word.toList.all (fun c => IsPlain c) = true →
      ∀ c ∈ word.toList, IsPlain c :=
    fun hall c hc => of_decide_eq_true (List.all_eq_true.mp hall c hc)
  cases hcheck : component.readiness with
  | processAlive =>
    exact componentKey (fun c => { c with readiness := .processAlive }) hsection hname
      (fun n state => parseLine_keyLine n state (by decide) (hword (by decide)))
      (fun n => by simp [applyComponentKey, parseReadiness, Except.map]) (nil _)
  | none =>
    exact componentKey (fun c => { c with readiness := .none }) hsection hname
      (fun n state => parseLine_keyLine n state (by decide) (hword (by decide)))
      (fun n => by simp [applyComponentKey, parseReadiness, Except.map]) (nil _)
  | unixSocket path =>
    refine componentKey (fun c => { c with readiness := .unixSocket [] }) hsection hname
      (fun n state => parseLine_keyLine n state (by decide) (hword (by decide)))
      (fun n => by simp [applyComponentKey, parseReadiness, Except.map]) ?_
    exact componentKey (fun c => { c with readiness := .unixSocket path }) hsection hname
      (fun n state => parseLine_keyLine n state (by decide) (h.readiness path hcheck).2)
      (fun n => by simp [applyComponentKey]) (nil _)

omit h in
/-- The last lines of a component's section. -/
theorem componentTail (c : ComponentConfig) :
    Steps t (base.setEntry component.name c)
      [keyLine "required" (if component.required then "true".toList else "false".toList),
        keyLine "startup_delay_ms" (Text.padded 0 component.startupDelayMs.toNat), []]
      (base.setEntry component.name { c with
        required := component.required
        startupDelayMs := component.startupDelayMs }) := by
  have hnumber : ∀ c ∈ Text.padded 0 component.startupDelayMs.toNat, IsPlain c :=
    fun c hc => isPlain_of_mem_padded hc
  have hbool : (if component.required then "true".toList else "false".toList).all
      (fun c => IsPlain c) = true := by
    cases component.required
    · decide
    · decide
  refine componentKey (fun c => { c with required := component.required }) hsection hname
    (fun n state => parseLine_keyLine n state (by decide)
      fun c hc => of_decide_eq_true (List.all_eq_true.mp hbool c hc)) (fun n => ?_) ?_
  · cases hrequired : component.required
    · simp [applyComponentKey, parseIniBool, Except.map]
    · simp [applyComponentKey, parseIniBool, Except.map]
  refine componentKey (fun c => { c with startupDelayMs := component.startupDelayMs }) hsection
    hname (fun n state => parseLine_keyLine n state (by decide) hnumber)
    (fun n => by simp [applyComponentKey, parseIniU64_padded, Except.map]) ?_
  exact cons (fun n => parseLine_blank n _) (nil _)

/-- The first lines of a component's section. -/
theorem componentHead (hlower : t.toLowercase component.name = component.name) {state : IniState}
    (hbase : base = { state with sectionName := "component:".toList ++ component.name })
    (hnew : component.name ∉ state.components) :
    Steps t state [headerLine ("component:".toList ++ component.name),
      keyLine "command" component.command, keyLine "args" (formatIniList component.args)]
      (base.setEntry component.name { emptyComponent component.name with
        command := component.command
        args := component.args }) := by
  have hentry : base.entry component.name = emptyComponent component.name := by
    rw [IniState.entry, hbase, Std.ExtTreeMap.getElem?_eq_none hnew, Option.getD_none]
  have hheader : ∀ n, parseLine t n state
      (headerLine ("component:".toList ++ component.name)) = .ok base := by
    intro n
    rw [parseLine_headerLine n state (isPlain_append (by decide) h.name)
      (toLowercase_append (by decide) hlower), hbase]
  refine cons hheader (key (base.setEntry component.name
    { emptyComponent component.name with command := component.command }) (by decide)
    h.command.2 (fun n => ?_) ?_)
  · rw [applyEntry_component hsection hname, hentry]
    simp [applyComponentKey, Except.map]
  exact componentKey (fun c => { c with args := component.args }) hsection hname
    (fun n state => parseLine_keyLine_list n state (by decide) h.args)
    (fun n => by simp [applyComponentKey, parseIniList_of_plainText h.args]) (nil _)

end Component

/-- The section of a component's environment. -/
theorem componentEnv {component : ComponentConfig} (h : component.Plain)
    (hlower : t.toLowercase component.name = component.name)
    (henvName : ¬ "component_env:".toList <+: component.name)
    (hkeys : ∀ name ∈ component.env, Folded t name) (base : IniState) :
    Steps t (base.setEntry component.name { component with env := ∅ })
      (headerLine ("component_env:".toList ++ component.name) ::
        (variableLines component.env ++ [[]]))
      ({ base with sectionName := "component_env:".toList ++ component.name }.setEntry
        component.name component) := by
  obtain ⟨envBase, henvBase⟩ : ∃ envBase : IniState,
      envBase = { base with sectionName := "component_env:".toList ++ component.name } :=
    ⟨_, rfl⟩
  have henvSection : envBase.sectionName = "component_env:".toList ++ component.name := by
    rw [henvBase]
  have hheader : ∀ n, parseLine t n (base.setEntry component.name { component with env := ∅ })
      (headerLine ("component_env:".toList ++ component.name)) =
      .ok (envBase.setEntry component.name { component with env := ∅ }) := by
    intro n
    rw [parseLine_headerLine n _ (isPlain_append (by decide) h.name)
      (toLowercase_append (by decide) hlower), henvBase]
    rfl
  have hvariables := insertAll (folded_entries h.env hkeys)
    (fun m => envBase.setEntry component.name { component with env := m })
    (fun m key value n => by
      have hsection' : (envBase.setEntry component.name
        { component with env := m }).sectionName = "component_env:".toList ++ component.name :=
        henvSection
      rw [applyEntry_componentEnv hsection' henvName, entry_setEntry, setEntry_setEntry]) ∅
  rw [OrderedMap.insertAll_toList fun k hk => absurd hk Std.ExtTreeMap.not_mem_empty]
    at hvariables
  rw [← henvBase]
  exact cons hheader (hvariables.append (cons (fun n => parseLine_blank n _) (nil _)))

/-- What the lines of a component add to what has been read. -/
theorem component {component : ComponentConfig} (h : component.Plain)
    (hlower : t.toLowercase component.name = component.name)
    (hname : ¬ "component:".toList <+: component.name)
    (henvName : component.env ≠ ∅ → ¬ "component_env:".toList <+: component.name)
    (hkeys : ∀ name ∈ component.env, Folded t name) {state : IniState}
    (hnew : component.name ∉ state.components) :
    ∃ sectionName, Steps t state (componentLines component)
      ({ state with sectionName := sectionName }.setEntry component.name component) := by
  obtain ⟨base, hbase⟩ : ∃ base : IniState,
      base = { state with sectionName := "component:".toList ++ component.name } := ⟨_, rfl⟩
  have hsection : base.sectionName = "component:".toList ++ component.name := by rw [hbase]
  have hbody : Steps t state _ (base.setEntry component.name { component with env := ∅ }) :=
    (componentHead h hsection hname hlower hbase hnew).append
      ((componentPaths h hsection hname _ rfl rfl).append
        ((componentReadiness h hsection hname _).append (componentTail hsection hname _)))
  by_cases hempty : component.env.isEmpty = true
  · have henv : component.env = ∅ := Std.ExtTreeMap.isEmpty_iff.mp hempty
    have hself : { component with env := ∅ } = component := by rw [← henv]
    refine ⟨"component:".toList ++ component.name, ?_⟩
    rw [hself, hbase] at hbody
    rw [componentLines, if_pos hempty, List.append_nil]
    simpa only [List.append_assoc] using hbody
  · have henvName' := henvName fun henv => hempty (Std.ExtTreeMap.isEmpty_iff.mpr henv)
    have hall := hbody.append (componentEnv h hlower henvName' hkeys base)
    refine ⟨"component_env:".toList ++ component.name, ?_⟩
    rw [componentLines, if_neg hempty]
    rw [hbase] at hall
    simpa only [List.append_assoc] using hall

/-- The components of a list, under distinct names. -/
theorem components {components : List ComponentConfig} (h : ∀ c ∈ components, c.Plain)
    (hlower : ∀ c ∈ components, t.toLowercase c.name = c.name)
    (hnames : ∀ c ∈ components, ¬ "component:".toList <+: c.name)
    (henvNames : ∀ c ∈ components, c.env ≠ ∅ → ¬ "component_env:".toList <+: c.name)
    (hkeys : ∀ c ∈ components, ∀ name ∈ c.env, Folded t name)
    (hdistinct : (components.map ComponentConfig.name).Nodup) (state : IniState)
    (hnew : ∀ c ∈ components, c.name ∉ state.components) :
    ∃ sectionName, Steps t state (components.flatMap componentLines)
      { state with
        sectionName := sectionName
        components := OrderedMap.insertAll state.components
          (components.map fun c => (c.name, c)) } := by
  induction components generalizing state with
  | nil => exact ⟨state.sectionName, nil state⟩
  | cons c components ih =>
    obtain ⟨hfirst, hdistinct⟩ := List.nodup_cons.mp hdistinct
    obtain ⟨sectionName, hlines⟩ := component (h c List.mem_cons_self)
      (hlower c List.mem_cons_self) (hnames c List.mem_cons_self) (henvNames c List.mem_cons_self)
      (hkeys c List.mem_cons_self) (hnew c List.mem_cons_self)
    have hnew' : ∀ c' ∈ components,
        c'.name ∉ ({ state with sectionName := sectionName }.setEntry c.name c).components := by
      intro c' hc' hmem
      obtain heq | hmem := Std.ExtTreeMap.mem_insert.mp hmem
      · exact hfirst (List.mem_map.mpr ⟨c', hc', (Std.LawfulEqOrd.eq_of_compare heq).symm⟩)
      · exact hnew c' (List.mem_cons_of_mem _ hc') hmem
    obtain ⟨sectionName', hrest⟩ := ih (fun c' hc' => h c' (List.mem_cons_of_mem _ hc'))
      (fun c' hc' => hlower c' (List.mem_cons_of_mem _ hc'))
      (fun c' hc' => hnames c' (List.mem_cons_of_mem _ hc'))
      (fun c' hc' => henvNames c' (List.mem_cons_of_mem _ hc'))
      (fun c' hc' => hkeys c' (List.mem_cons_of_mem _ hc')) hdistinct _ hnew'
    exact ⟨sectionName', hlines.append hrest⟩

end Steps

end Ini

end Sesman

end Cheirizo

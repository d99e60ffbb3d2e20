import StructuredQuery.Command
import StructuredQuery.Proofs.Command.Flags
import StructuredQuery.Proofs.Json.Embedding
import StructuredQuery.Proofs.Strictness
import StructuredQuery.Query.Reader

/-!
# Strict and indented runs

Strictness, by the flag or by the setting, only makes the configuration stricter, so that a run
that succeeds with it builds the same query without it.  The layout is chosen after the query has
been built, and the reader does not see it.
-/

namespace StructuredQuery

namespace Config

theorem le_refl (config : Config) :
  config ≤ config
  := ⟨fun h => h, fun h => h⟩

theorem le_strict (config : Config) :
  config ≤ strict
  := ⟨fun _ => rfl, fun _ => rfl⟩

end Config

/-- Under a more permissive configuration a request gives the same query. -/
theorem Request.query_of_le {low high : Config} (h : low ≤ high) {request : Request}
    {sources : Sources} {query : Query} (hquery : request.query sources high = .ok query) :
  request.query sources low = .ok query
  := by
  cases request with
  | compose plan =>
    simp only [Request.query, Except.bind_eq_ok_iff, Except.mapError_eq_ok_iff] at hquery ⊢
    obtain ⟨text, htext, plan, hplan, hcompile⟩ := hquery
    use text, htext, plan, hplan
    apply Plan.compile_extends h plan query hcompile
  | term text weight => apply hquery
  | qtext text => apply hquery
  | constraint kind name values =>
    simp only [Request.query, Except.mapError_eq_ok_iff] at hquery ⊢
    apply Config.constraintForLabel_extends h kind name _ query hquery
  | options file name values =>
    simp only [Request.query, Except.bind_eq_ok_iff, Except.mapError_eq_ok_iff] at hquery ⊢
    obtain ⟨text, htext, options, hoptions, hconstraint⟩ := hquery
    use text, htext, options, hoptions
    apply Config.constraint_extends h _ name _ query hconstraint

namespace Invocation

variable {invocation : Invocation} {sources : Sources}

/-! ### The configuration -/

/-- The flag is given, or the setting is `1` or `true`, up to the white space around it and the
case of its letters. -/
def AsksForStrict (invocation : Invocation) (sources : Sources) : Prop :=
  invocation.strict = true
    ∨ ∃ setting, sources.strictSetting = some setting
      ∧ Text.lowerLetters (Text.trim setting.toList) ∈ [['1'], ['t', 'r', 'u', 'e']]

/-- The configuration in the file, if one is named, is this one, and without a file it is the
permissive one. -/
def Configures (invocation : Invocation) (sources : Sources) (config : Config) : Prop :=
  invocation.config = none ∧ config = .permissive
    ∨ ∃ file text, invocation.config = some file ∧ sources.file file = .ok text
      ∧ Config.ofText text = .ok config

theorem fileConfig_eq_ok_iff {config : Config} :
  invocation.fileConfig sources = .ok config ↔ invocation.Configures sources config
  := by
  rw [fileConfig, Configures]
  cases invocation.config with
  | none => simp [eq_comm]
  | some file => simp [Except.bind_eq_ok_iff, Except.mapError_eq_ok_iff]

theorem any_asksForStrict_iff {setting : Option String} :
  setting.any Config.asksForStrict = true
    ↔ ∃ text, setting = some text
      ∧ Text.lowerLetters (Text.trim text.toList) ∈ [['1'], ['t', 'r', 'u', 'e']]
  := by
  cases setting with
  | none => simp
  | some text => simp [Config.asksForStrict]

theorem effectiveConfig_of_asksForStrict (h : invocation.AsksForStrict sources) {config : Config}
    (hconfig : invocation.fileConfig sources = .ok config) :
  invocation.effectiveConfig sources = .ok .strict
  := by
  rw [effectiveConfig, hconfig]
  obtain hflag | hsetting := h
  · simp only [hflag, if_true]
    rfl
  · simp only [Config.override, any_asksForStrict_iff.mpr hsetting, if_true, ite_self]
    rfl

theorem effectiveConfig_of_not_asksForStrict (h : ¬invocation.AsksForStrict sources)
    {config : Config} (hconfig : invocation.fileConfig sources = .ok config) :
  invocation.effectiveConfig sources = .ok config
  := by
  obtain ⟨hflag, hsetting⟩ := not_or.mp h
  rw [← any_asksForStrict_iff] at hsetting
  rw [effectiveConfig, hconfig]
  simp only [Config.override, hflag, hsetting]
  rfl

theorem effectiveConfig_of_error {report : Report}
    (h : invocation.fileConfig sources = .error report) :
  invocation.effectiveConfig sources = .error report
  := by
  rw [effectiveConfig, h]
  rfl

theorem query_of_fileConfig {report : Report} (h : invocation.fileConfig sources = .error report) :
  invocation.query sources = .error report
  := by
  rw [query, effectiveConfig_of_error h]
  rfl

/-- Where less strictness is asked for, the configuration is more permissive or the same. -/
theorem exists_effectiveConfig_le {flag : Bool} {setting : Option String}
    (h : AsksForStrict { invocation with strict := flag } { sources with strictSetting := setting } →
      invocation.AsksForStrict sources)
    {high : Config} (hhigh : invocation.effectiveConfig sources = .ok high) :
  ∃ low, effectiveConfig { invocation with strict := flag }
      { sources with strictSetting := setting } = .ok low
    ∧ low ≤ high
  := by
  cases hconfig : invocation.fileConfig sources with
  | error report =>
    rw [effectiveConfig_of_error hconfig] at hhigh
    cases hhigh
  | ok config =>
    have hlowConfig : fileConfig { invocation with strict := flag }
        { sources with strictSetting := setting } = .ok config := hconfig
    by_cases hlow : AsksForStrict { invocation with strict := flag }
        { sources with strictSetting := setting }
    · use .strict, effectiveConfig_of_asksForStrict hlow hlowConfig
      rw [effectiveConfig_of_asksForStrict (h hlow) hconfig] at hhigh
      cases hhigh
      apply Config.le_refl
    · use config, effectiveConfig_of_not_asksForStrict hlow hlowConfig
      by_cases hstrict : invocation.AsksForStrict sources
      · rw [effectiveConfig_of_asksForStrict hstrict hconfig] at hhigh
        cases hhigh
        apply Config.le_strict
      · rw [effectiveConfig_of_not_asksForStrict hstrict hconfig] at hhigh
        cases hhigh
        apply Config.le_refl

/-- Where less strictness is asked for, a command line gives the same query. -/
theorem query_of_asksForStrict {flag : Bool} {setting : Option String}
    (h : AsksForStrict { invocation with strict := flag } { sources with strictSetting := setting } →
      invocation.AsksForStrict sources)
    {query : Query} (hquery : invocation.query sources = .ok query) :
  Invocation.query { invocation with strict := flag } { sources with strictSetting := setting }
    = .ok query
  := by
  obtain ⟨high, hhigh, hrequest⟩ := Except.bind_eq_ok_iff.mp hquery
  obtain ⟨low, hlow, hle⟩ := exists_effectiveConfig_le h hhigh
  apply Except.bind_eq_ok_iff.mpr
  use low, hlow
  have hsources : invocation.request.query { sources with strictSetting := setting } low
      = invocation.request.query sources low := by
    cases invocation.request <;> rfl
  rw [hsources]
  apply Request.query_of_le hle hrequest

end Invocation

/-! ### The text with its line break -/

/-- A line break after a text that holds a tree is not seen. -/
theorem Document.ofText_append_newLine {text : String} {json : Json}
    (h : ofText text = ⟨Doc.ofJson json, false⟩) :
  ofText (text ++ "\n") = ⟨Doc.ofJson json, false⟩
  := by
  rw [ofText, Token.scan, String.toList_append]
  apply ofTokensFrom_scan h []
  apply Numeral.delimited_cons
  decide

namespace Query

/-- The two layouts of a query are read as the same. -/
theorem ofText_line (query : Query) :
  ofText (query.toPrettyText ++ "\n") = ofText (query.toText ++ "\n")
  := by
  have hpretty := Document.ofText_append_newLine (Document.ofText_pretty query.encode)
  have hcompact := Document.ofText_append_newLine (Document.ofText_compact query.encode)
  rw [ofText, toPrettyText, hpretty, ofText, toText, hcompact]

end Query

namespace Command

variable {invocation : Invocation} {sources : Sources} {query : Query}

theorem runOutcome_of_ok (h : invocation.query sources = .ok query) :
  runOutcome invocation sources
    = ⟨0, (if invocation.pretty then query.toPrettyText else query.toText) ++ "\n", ""⟩
  := by
  rw [runOutcome, Invocation.run, h]
  rfl

theorem runOutcome_of_error {report : Report} (h : invocation.query sources = .error report) :
  runOutcome invocation sources = ⟨1, "", report.text ++ "\n"⟩
  := by
  rw [runOutcome, Invocation.run, h]
  rfl

/-- A run succeeds if its query is built. -/
theorem exists_query_of_exitCode (h : (runOutcome invocation sources).exitCode = 0) :
  ∃ query, invocation.query sources = .ok query
  := by
  cases hquery : invocation.query sources with
  | error report =>
    rw [runOutcome_of_error hquery] at h
    cases h
  | ok query => exact ⟨query, rfl⟩

/-- A run that succeeds does the same where less strictness is asked for. -/
theorem runOutcome_of_asksForStrict {flag : Bool} {setting : Option String}
    (h : Invocation.AsksForStrict { invocation with strict := flag }
      { sources with strictSetting := setting } → invocation.AsksForStrict sources)
    (hexit : (runOutcome invocation sources).exitCode = 0) :
  runOutcome { invocation with strict := flag } { sources with strictSetting := setting }
    = runOutcome invocation sources
  := by
  obtain ⟨query, hquery⟩ := exists_query_of_exitCode hexit
  rw [runOutcome_of_ok hquery, runOutcome_of_ok (Invocation.query_of_asksForStrict h hquery)]

/-- In every layout a run fails in the same way, or writes the text of the same query. -/
theorem runOutcome_layouts (invocation : Invocation) (sources : Sources) :
  (∃ report : Report, ∀ layout,
    runOutcome { invocation with pretty := layout } sources = ⟨1, "", report.text ++ "\n"⟩)
  ∨ ∃ query, invocation.query sources = .ok query ∧ ∀ layout,
    runOutcome { invocation with pretty := layout } sources
      = ⟨0, (if layout then query.toPrettyText else query.toText) ++ "\n", ""⟩
  := by
  have hsame (layout : Bool) : Invocation.query { invocation with pretty := layout } sources
      = invocation.query sources := by
    rfl
  cases hquery : invocation.query sources with
  | error report =>
    left
    use report
    intro layout
    apply runOutcome_of_error
    rw [hsame, hquery]
  | ok query =>
    right
    use query, rfl
    intro layout
    rw [runOutcome_of_ok ((hsame layout).trans hquery)]

/-- The layout does not matter to the code of the run, nor to what its output is read as. -/
theorem runOutcome_pretty (invocation : Invocation) (sources : Sources) (first second : Bool) :
  (runOutcome { invocation with pretty := first } sources).exitCode
      = (runOutcome { invocation with pretty := second } sources).exitCode
    ∧ Query.ofText (runOutcome { invocation with pretty := first } sources).output
      = Query.ofText (runOutcome { invocation with pretty := second } sources).output
  := by
  obtain ⟨report, hfailure⟩ | ⟨query, -, hsuccess⟩ := runOutcome_layouts invocation sources
  · rw [hfailure, hfailure]
    exact ⟨rfl, rfl⟩
  · rw [hsuccess, hsuccess]
    use rfl
    cases first <;> cases second <;> simp [Query.ofText_line]

/-! ### Arguments -/

/-- What a flag among the arguments does to the outcome: it is refused for its form, it does not
matter, as the command line is not carried out, or it is set. -/
theorem outcome_insert (flag : Invocation.Flag) {before : List String} (h : "--" ∉ before)
    (after : List String) (sources : Sources) :
  outcome (before ++ flag.argument :: after) sources = stopOutcome .usage
    ∨ outcome (before ++ flag.argument :: after) sources = outcome (before ++ after) sources
    ∨ ∃ invocation, outcome (before ++ after) sources = runOutcome invocation sources
      ∧ outcome (before ++ flag.argument :: after) sources
        = runOutcome (flag.raise invocation) sources
  := by
  obtain husage | hset := Invocation.Flag.follows_ofArguments flag h after
  · left
    rw [outcome, husage]
  · right
    cases hplain : Invocation.ofArguments (before ++ after) with
    | error stop =>
      left
      rw [outcome, hset, outcome, hplain]
      rfl
    | ok invocation =>
      right
      use invocation
      rw [outcome, outcome, hset, hplain]
      exact ⟨rfl, rfl⟩

/-- A command line with the flag for strictness that succeeds does the same without it. -/
theorem outcome_insert_strict {before : List String} (h : "--" ∉ before) (after : List String)
    (hexit : (outcome (before ++ Invocation.Flag.strict.argument :: after) sources).exitCode = 0) :
  outcome (before ++ after) sources
    = outcome (before ++ Invocation.Flag.strict.argument :: after) sources
  := by
  obtain husage | hstop | ⟨invocation, hplain, hflagged⟩ := outcome_insert .strict h after sources
  · rw [husage] at hexit
    cases hexit
  · exact hstop.symm
  · rw [hflagged] at hexit ⊢
    rw [hplain]
    apply runOutcome_of_asksForStrict (fun _ => Or.inl rfl) hexit

/-- The flag for the layout is refused for its form, or the command ends with the same code and
its output is read as the same. -/
theorem outcome_insert_pretty {before : List String} (h : "--" ∉ before) (after : List String)
    (hexit : (outcome (before ++ Invocation.Flag.pretty.argument :: after) sources).exitCode ≠ 2) :
  (outcome (before ++ Invocation.Flag.pretty.argument :: after) sources).exitCode
      = (outcome (before ++ after) sources).exitCode
    ∧ Query.ofText (outcome (before ++ Invocation.Flag.pretty.argument :: after) sources).output
      = Query.ofText (outcome (before ++ after) sources).output
  := by
  obtain husage | hstop | ⟨invocation, hplain, hflagged⟩ := outcome_insert .pretty h after sources
  · rw [husage] at hexit
    exact absurd rfl hexit
  · rw [hstop]
    exact ⟨rfl, rfl⟩
  · rw [hflagged, hplain]
    apply runOutcome_pretty invocation sources true invocation.pretty

end Command

/-! ### Strictness and layout keep the query -/

open Command

/-- The configuration is strict if the flag is given or the setting asks for it, and else it is
that of the file, or the permissive one without a file; a file that cannot be read or that holds
no configuration fails the run in any case.  A run that succeeds with the flag, or with a setting,
succeeds with the same output without it.  A run with the other layout ends with the same code,
and if it succeeds, its output is the other text of the same query, and read as the same.  So it
is on the command line, where each flag that is not set can be given in front, and among the
arguments wherever it is not refused for its form. -/
theorem strictness_and_layout_keep_query (invocation : Invocation) (sources : Sources) :
  (∀ config, invocation.Configures sources config →
    (invocation.AsksForStrict sources → invocation.effectiveConfig sources = .ok .strict)
      ∧ (¬invocation.AsksForStrict sources → invocation.effectiveConfig sources = .ok config))
  ∧ (∀ file, invocation.config = some file →
    (∀ error, sources.file file = .error error → runOutcome invocation sources
        = ⟨1, "", (Report.ofFile s!"reading config {file}" error).text ++ "\n"⟩)
      ∧ ∀ text error, sources.file file = .ok text → Config.ofText text = .error error →
        runOutcome invocation sources
          = ⟨1, "", (Report.within s!"parsing config {file}" (.badConfig error)).text ++ "\n"⟩)
  ∧ ((runOutcome { invocation with strict := true } sources).exitCode = 0 →
    runOutcome { invocation with strict := false } sources
      = runOutcome { invocation with strict := true } sources)
  ∧ (∀ setting,
    (runOutcome invocation { sources with strictSetting := some setting }).exitCode = 0 →
      runOutcome invocation { sources with strictSetting := none }
        = runOutcome invocation { sources with strictSetting := some setting })
  ∧ (let compact := runOutcome { invocation with pretty := false } sources
    let indented := runOutcome { invocation with pretty := true } sources
    indented.exitCode = compact.exitCode
      ∧ (compact.exitCode ≠ 0 → indented = compact)
      ∧ (compact.exitCode = 0 → ∃ query, invocation.query sources = .ok query
        ∧ compact.output = query.toText ++ "\n" ∧ indented.output = query.toPrettyText ++ "\n")
      ∧ Query.ofText indented.output = Query.ofText compact.output)
  ∧ (∀ arguments, Invocation.ofArguments arguments = .ok invocation →
    (invocation.strict = false →
      Invocation.ofArguments ("--strict" :: arguments) = .ok { invocation with strict := true })
      ∧ (invocation.pretty = false →
        Invocation.ofArguments ("--pretty" :: arguments) = .ok { invocation with pretty := true }))
  ∧ ∀ before after, "--" ∉ before →
    ((outcome (before ++ "--strict" :: after) sources).exitCode = 0 →
      outcome (before ++ after) sources = outcome (before ++ "--strict" :: after) sources)
      ∧ ((outcome (before ++ "--pretty" :: after) sources).exitCode ≠ 2 →
        (outcome (before ++ "--pretty" :: after) sources).exitCode
            = (outcome (before ++ after) sources).exitCode
          ∧ Query.ofText (outcome (before ++ "--pretty" :: after) sources).output
            = Query.ofText (outcome (before ++ after) sources).output)
  := by
  refine ⟨?_, ?_, ?_, ?_, ?_, ?_, ?_⟩
  · intro config hconfig
    have hfile := Invocation.fileConfig_eq_ok_iff.mpr hconfig
    exact ⟨fun h => Invocation.effectiveConfig_of_asksForStrict h hfile,
      fun h => Invocation.effectiveConfig_of_not_asksForStrict h hfile⟩
  · intro file hconfig
    constructor
    · intro error herror
      apply runOutcome_of_error
      apply Invocation.query_of_fileConfig
      rw [Invocation.fileConfig, hconfig]
      simp only [herror]
      rfl
    · intro text error htext herror
      apply runOutcome_of_error
      apply Invocation.query_of_fileConfig
      rw [Invocation.fileConfig, hconfig]
      simp only [htext, Except.mapError, bind, Except.bind, herror]
  · intro hexit
    apply runOutcome_of_asksForStrict (fun _ => Or.inl rfl) hexit
  · intro setting hexit
    apply runOutcome_of_asksForStrict _ hexit
    apply Or.imp_right
    rintro ⟨text, htext, -⟩
    cases htext
  · intro compact indented
    obtain ⟨hexit, hread⟩ := runOutcome_pretty invocation sources true false
    obtain ⟨report, hfailure⟩ | ⟨query, hquery, hsuccess⟩ := runOutcome_layouts invocation sources
    · have hcompact : compact = _ := hfailure false
      have hindented : indented = _ := hfailure true
      refine ⟨hexit, fun _ => hindented.trans hcompact.symm, ?_, hread⟩
      intro hzero
      rw [hcompact] at hzero
      cases hzero
    · have hcompact : compact = _ := hsuccess false
      have hindented : indented = _ := hsuccess true
      refine ⟨hexit, ?_, fun _ => ⟨query, hquery, ?_, ?_⟩, hread⟩
      · intro hfailed
        rw [hcompact] at hfailed
        exact absurd rfl hfailed
      · rw [hcompact]
        rfl
      · rw [hindented]
        rfl
  · intro arguments harguments
    have hlifts (flag : Invocation.Flag) (hunset : flag.raise invocation ≠ invocation) :
        Invocation.ofArguments (flag.argument :: arguments) = .ok (flag.raise invocation) := by
      obtain hset | ⟨-, hset⟩ := Invocation.Flag.lifts_ofArguments flag arguments
      · rw [hset, harguments]
        rfl
      · exact absurd (hset invocation harguments) hunset
    constructor
    · intro hstrict
      apply hlifts .strict
      intro heq
      rw [← heq] at hstrict
      cases hstrict
    · intro hpretty
      apply hlifts .pretty
      intro heq
      rw [← heq] at hpretty
      cases hpretty
  · intro before after hbefore
    exact ⟨outcome_insert_strict hbefore after, outcome_insert_pretty hbefore after⟩

/-- A constraint that all configurations give alike, under a setting that asks for strictness, and
a configuration that is not there. -/
theorem strictness_and_layout_keep_query_status :
  let sources : Sources := ⟨fun _ => .error .notFound, .error .notFound, some " True\n"⟩
  let invocation : Invocation :=
    ⟨false, false, none, .constraint (some "value") "status" ["true"]⟩
  let file := "structq.json"
  invocation.effectiveConfig sources = .ok .strict
    ∧ runOutcome { invocation with strict := false } sources
      = runOutcome { invocation with strict := true } sources
    ∧ runOutcome invocation { sources with strictSetting := none }
      = runOutcome invocation { sources with strictSetting := some " True\n" }
    ∧ Invocation.ofArguments ["--pretty", "constraint", "--kind=value", "status", "true"]
      = .ok { invocation with pretty := true }
    ∧ outcome ["constraint", "--kind=value", "status", "true"] sources
      = outcome ["constraint", "--kind=value", "--strict", "status", "true"] sources
    ∧ runOutcome ⟨true, false, some file, .qtext ["whale"]⟩ sources
      = ⟨1, "", (Report.ofFile s!"reading config {file}" .notFound).text ++ "\n"⟩
  := by
  intro sources invocation file
  obtain ⟨hconfig, -, hflag, hsetting, -, hfront, hamong⟩ :=
    strictness_and_layout_keep_query invocation sources
  refine ⟨?_, hflag rfl, hsetting " True\n" rfl, ?_, ?_, ?_⟩
  · apply (hconfig .permissive (Or.inl ⟨rfl, rfl⟩)).1
    exact Or.inr ⟨" True\n", rfl, by decide⟩
  · apply (hfront ["constraint", "--kind=value", "status", "true"] _).2 rfl
    decide +kernel
  · apply (hamong ["constraint", "--kind=value"] ["status", "true"] (by decide)).1
    decide +kernel
  · apply ((strictness_and_layout_keep_query _ sources).2.1 file rfl).1
    rfl

end StructuredQuery

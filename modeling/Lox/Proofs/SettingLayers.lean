import Mathlib.Logic.Basic
import Lox.Settings

/-! Where each setting comes from. A variable of the environment goes before the file, and the file before the
default, key by key; but an entry of the file must fit its key even where a variable overrides it. -/

namespace Lox.Proofs
open Settings

/-- What may be read at a path: nothing, or the document written there. -/
inductive Stored (files : Files) (path : Path) : Option Toml.Table → Prop where
  | absent (missing : files.get? path = none) : Stored files path none
  | parsed {bytes : List UInt8} {text : List Char} {document : Toml.Table}
      (found : files.get? path = some (.file bytes)) (decoded : Text.decodeUtf8 bytes = .ok text)
      (reads : Toml.parse? text = some document) : Stored files path (some document)

/-- The values of one type that an entry may have. -/
structure KeyType (α : Type) where
  expected : String
  wrap : α → Toml.Value
  unwrap : Toml.Value → Option α
  unwrap_iff : ∀ found value, unwrap found = some value ↔ found = wrap value

def textType : KeyType String where
  expected := "str"
  wrap := .string
  unwrap
    | .string text => some text
    | _ => none
  unwrap_iff found value := by cases found <;> simp

def flagType : KeyType Bool where
  expected := "bool"
  wrap := .boolean
  unwrap
    | .boolean flag => some flag
    | _ => none
  unwrap_iff found value := by cases found <;> simp

def tableType : KeyType Toml.Table where
  expected := "table"
  wrap := .table
  unwrap
    | .table table => some table
    | _ => none
  unwrap_iff found value := by cases found <;> simp

/-- A value of another type. -/
def KeyType.Misfit {α : Type} (type : KeyType α) (found : Toml.Value) : Prop := ∀ value, found ≠ type.wrap value

/-- There is no entry, or it is of the type. -/
def KeyType.Fits {α : Type} (type : KeyType α) (entry : Option Toml.Value) : Prop :=
  ∀ found, entry = some found → ∃ value, found = type.wrap value

def replValue (document : Option Toml.Table) : Option Toml.Value := document.bind (·.get? "repl")

/-- The entry of a key in the `[repl]` table. -/
def replEntry (document : Option Toml.Table) (key : String) : Option Toml.Value :=
  match replValue document with
  | some (.table table) => Toml.Table.get? table key
  | _ => none

/-- A variable that is missing or empty. -/
def Unset (override : Option String) : Prop := ∀ text, override = some text → text = ""

/-- The source a value is taken from. `means` says what a text in the environment stands for. -/
inductive Taken {α : Type} (type : KeyType α) (override : Option String) (means : String → α → Prop)
    (entry : Option Toml.Value) (fallback : α) : α → Prop where
  | environment {text : String} {value : α} (set : override = some text) (nonempty : text ≠ "")
      (meaning : means text value) : Taken type override means entry fallback value
  | file {value : α} (unset : Unset override) (found : entry = some (type.wrap value)) :
      Taken type override means entry fallback value
  | default (unset : Unset override) (absent : entry = none) : Taken type override means entry fallback fallback

/-- The text that names the log level. -/
abbrev LevelText (document : Option Toml.Table) (env : Environment) : String → Prop :=
  Taken textType env.logLevel Eq (replEntry document "log_level") "WARNING"

def NamesLevel (text : String) (level : LogLevel) : Prop := Text.upper (Text.strip text.toList) = level.name.toList

def MeansColor (text : String) (color : Bool) : Prop :=
  color = false ↔ String.ofList (Text.lower (Text.strip text.toList)) ∈ ["0", "false", "no", "off"]

/-- What is wrong with a document and an environment. -/
inductive Refusal (source : String) (document : Option Toml.Table) (env : Environment) : SettingsError → Prop where
  | notTable {found : Toml.Value} (repl : replValue document = some found) (misfit : tableType.Misfit found) :
      Refusal source document env (.notTable source found)
  | prompt {found : Toml.Value} (entry : replEntry document "prompt" = some found) (misfit : textType.Misfit found) :
      Refusal source document env (.wrongType source "prompt" "str" found)
  | logLevel {found : Toml.Value} (entry : replEntry document "log_level" = some found)
      (misfit : textType.Misfit found) : Refusal source document env (.wrongType source "log_level" "str" found)
  | color {found : Toml.Value} (entry : replEntry document "color" = some found) (misfit : flagType.Misfit found) :
      Refusal source document env (.wrongType source "color" "bool" found)
  | badLevel {text : String} (effective : LevelText document env text) (unknown : ∀ level, ¬ NamesLevel text level) :
      Refusal source document env (.badLevel text)

/-- Each setting is taken from the first of its sources. -/
structure Resolves (document : Option Toml.Table) (env : Environment) (settings : Settings) : Prop where
  prompt : Taken textType env.prompt Eq (replEntry document "prompt") "> " settings.prompt
  logLevel : ∃ text, LevelText document env text ∧ NamesLevel text settings.logLevel
  color : Taken flagType env.color MeansColor (replEntry document "color") true settings.color

/-- Two entries that make no difference: they are the same, or both fit and are overridden. -/
inductive SameUnder {α : Type} (type : KeyType α) (override : Option String) (entry entry' : Option Toml.Value) :
    Prop where
  | same (equal : entry = entry')
  | overridden {text : String} (set : override = some text) (nonempty : text ≠ "") (fits : type.Fits entry)
      (fits' : type.Fits entry')

/-- Two documents that differ only in what the settings do not depend on. -/
structure Agree (env : Environment) (document document' : Option Toml.Table) : Prop where
  repl : ∀ found, tableType.Misfit found → (replValue document = some found ↔ replValue document' = some found)
  prompt : SameUnder textType env.prompt (replEntry document "prompt") (replEntry document' "prompt")
  logLevel : SameUnder textType env.logLevel (replEntry document "log_level") (replEntry document' "log_level")
  color : SameUnder flagType env.color (replEntry document "color") (replEntry document' "color")

/-- What messages call the file. -/
def shownAs (workingDirectory : String) : Option Path → String
  | some path => path.text
  | none => workingDirectory ++ "/" ++ defaultPath.text

/-- The value of an entry, if there is one and it is of the type. -/
def KeyType.check {α : Type} (type : KeyType α) (source key : String) :
    Option Toml.Value → Except SettingsError (Option α)
  | none => .ok none
  | some found =>
    match type.unwrap found with
    | some value => .ok (some value)
    | none => .error (.wrongType source key type.expected found)

/-- The value of a key: its entry is checked whether or not it is overridden. -/
def KeyType.settle {α : Type} (type : KeyType α) (source key : String) (read : String → α) (override : Option String)
    (entry : Option Toml.Value) : Except SettingsError (Option α) :=
  (type.check source key entry).map ((nonempty override).map read <|> ·)

/-- The settings as a function of the three entries only. -/
def settleKeys (source : String) (env : Environment) (prompt logLevel color : Option Toml.Value) :
    Except SettingsError Settings := do
  let prompt ← textType.settle source "prompt" id env.prompt prompt
  let logLevel ← textType.settle source "log_level" id env.logLevel logLevel
  let color ← flagType.settle source "color" isColorOn env.color color
  let logLevel ← level (logLevel.getD "WARNING")
  return { prompt := prompt.getD "> ", logLevel, color := color.getD true }

section
variable {α : Type} {type : KeyType α} {entry entry' : Option Toml.Value} {found : Toml.Value}
  {override : Option String}

theorem nonempty_eq_some {text : String} (set : override = some text) (some_ : text ≠ "") :
    nonempty override = some text := by
  rw [set, nonempty, Option.filter_some, if_pos (decide_eq_true some_)]

theorem nonempty_eq_none (unset : Unset override) : nonempty override = none := by
  rw [nonempty, Option.filter_eq_none_iff]
  intro text set
  simp [unset text set]

theorem set_or_unset (override : Option String) : (∃ text, override = some text ∧ text ≠ "") ∨ Unset override := by
  by_cases unset : Unset override
  · exact .inr unset
  · simp only [Unset, not_forall] at unset
    obtain ⟨text, set, some_⟩ := unset
    exact .inl ⟨text, set, some_⟩

theorem KeyType.unwrap_eq_none (misfit : type.Misfit found) : type.unwrap found = none := by
  cases unwraps : type.unwrap found with
  | none => rfl
  | some value => exact absurd ((type.unwrap_iff found value).mp unwraps) (misfit value)

theorem KeyType.unwrap_wrap (value : α) : type.unwrap (type.wrap value) = some value :=
  (type.unwrap_iff _ value).mpr rfl

theorem KeyType.wrap_injective : Function.Injective type.wrap := by
  intro value value' same
  have unwraps := type.unwrap_wrap value
  rw [same, type.unwrap_wrap] at unwraps
  exact (Option.some.inj unwraps).symm

theorem KeyType.fits_or_misfit (type : KeyType α) (entry : Option Toml.Value) :
    type.Fits entry ∨ ∃ found, entry = some found ∧ type.Misfit found := by
  by_cases fits : type.Fits entry
  · exact .inl fits
  · simp only [Fits, not_forall, not_exists] at fits
    obtain ⟨found, same, misfit⟩ := fits
    exact .inr ⟨found, same, misfit⟩

theorem KeyType.Fits.not_misfit (fits : type.Fits entry) (same : entry = some found) : ¬ type.Misfit found := by
  intro misfit
  obtain ⟨value, wrapped⟩ := fits found same
  exact misfit value wrapped

theorem KeyType.check_misfit {source key : String} (misfit : type.Misfit found) :
    type.check source key (some found) = .error (.wrongType source key type.expected found) := by
  rw [check, unwrap_eq_none misfit]

theorem KeyType.check_wrap {source key : String} (value : α) :
    type.check source key (some (type.wrap value)) = .ok (some value) := by
  rw [check, unwrap_wrap]

theorem KeyType.check_fits (source key : String) (fits : type.Fits entry) :
    ∃ value, type.check source key entry = .ok value ∧ entry = value.map type.wrap := by
  cases entry with
  | none => exact ⟨none, rfl, rfl⟩
  | some found =>
    obtain ⟨value, rfl⟩ := fits found rfl
    exact ⟨some value, check_wrap value, rfl⟩

/-- A key is refused for its entry, or takes its value from the first source. -/
theorem KeyType.settle_cases (type : KeyType α) (source key : String) {read : String → α} {means : String → α → Prop}
    (meaning : ∀ text, means text (read text)) (override : Option String) (entry : Option Toml.Value) :
    (∃ found, entry = some found ∧ type.Misfit found ∧
      type.settle source key read override entry = .error (.wrongType source key type.expected found)) ∨
    (type.Fits entry ∧ ∃ value, type.settle source key read override entry = .ok value ∧
      ∀ fallback, Taken type override means entry fallback (value.getD fallback)) := by
  rcases type.fits_or_misfit entry with fits | ⟨found, rfl, misfit⟩
  · obtain ⟨value, checked, same⟩ := type.check_fits source key fits
    refine .inr ⟨fits, (nonempty override).map read <|> value, by rw [settle, checked]; rfl, fun fallback => ?_⟩
    rcases set_or_unset override with ⟨text, set, some_⟩ | unset
    · rw [nonempty_eq_some set some_]
      exact .environment set some_ (meaning text)
    · rw [nonempty_eq_none unset]
      cases value with
      | none => exact .default unset same
      | some value => exact .file unset same
  · exact .inl ⟨found, rfl, misfit, by rw [settle, check_misfit misfit]; rfl⟩

theorem SameUnder.settle_eq (source key : String) (read : String → α) (same : SameUnder type override entry entry') :
    type.settle source key read override entry = type.settle source key read override entry' := by
  cases same with
  | same equal => rw [equal]
  | overridden set some_ fits fits' =>
    obtain ⟨value, checked, -⟩ := KeyType.check_fits source key fits
    obtain ⟨value', checked', -⟩ := KeyType.check_fits source key fits'
    rw [KeyType.settle, KeyType.settle, nonempty_eq_some set some_, checked, checked']
    rfl

theorem Taken.unique {means : String → α → Prop} {fallback value value' : α}
    (taken : Taken type override means entry fallback value) (taken' : Taken type override means entry fallback value')
    (only : ∀ text value value', means text value → means text value' → value = value') : value = value' := by
  cases taken with
  | environment set some_ meaning =>
    cases taken' with
    | environment set' _ meaning' =>
      cases set.symm.trans set'
      exact only _ _ _ meaning meaning'
    | file unset _ | default unset _ => exact absurd (unset _ set) some_
  | file unset found =>
    cases taken' with
    | environment set some_ _ => exact absurd (unset _ set) some_
    | file _ found' => exact KeyType.wrap_injective (Option.some.inj (found.symm.trans found'))
    | default _ absent => cases found.symm.trans absent
  | default unset absent =>
    cases taken' with
    | environment set some_ _ => exact absurd (unset _ set) some_
    | file _ found => cases absent.symm.trans found
    | default => rfl

end

theorem name_injective : Function.Injective LogLevel.name := by
  intro level level' same
  cases level <;> cases level' <;> first | rfl | simp [LogLevel.name] at same

theorem NamesLevel.unique {text : String} {level level' : LogLevel} (names : NamesLevel text level)
    (names' : NamesLevel text level') : level = level' :=
  name_injective (String.toList_injective (names.symm.trans names'))

theorem level_cases (text : String) :
    (∃ level, Settings.level text = .ok level ∧ NamesLevel text level) ∨
      Settings.level text = .error (.badLevel text) ∧ ∀ level, ¬ NamesLevel text level := by
  unfold Settings.level
  cases found : LogLevel.ofText? text with
  | some level =>
    have names := List.find?_some found
    exact .inl ⟨level, rfl, (of_decide_eq_true names).symm⟩
  | none =>
    refine .inr ⟨rfl, fun level names => ?_⟩
    have member : level ∈ LogLevel.all := by cases level <;> decide
    exact List.find?_eq_none.mp found level member (decide_eq_true names.symm)

theorem isColorOn_means (text : String) : MeansColor text (isColorOn text) := by
  rw [MeansColor, isColorOn, decide_eq_false_iff_not, not_not]

theorem MeansColor.unique {text : String} {color color' : Bool} (means : MeansColor text color)
    (means' : MeansColor text color') : color = color' := by
  have same : color = false ↔ color' = false := Iff.trans means means'.symm
  cases color <;> cases color' <;> simp_all

theorem Resolves.unique {document : Option Toml.Table} {env : Environment} {settings settings' : Settings}
    (resolves : Resolves document env settings) (resolves' : Resolves document env settings') :
    settings = settings' := by
  obtain ⟨text, taken, names⟩ := resolves.logLevel
  obtain ⟨text', taken', names'⟩ := resolves'.logLevel
  have prompt := resolves.prompt.unique resolves'.prompt fun _ _ _ first second => first.symm.trans second
  obtain rfl := taken.unique taken' fun _ _ _ first second => first.symm.trans second
  have logLevel := names.unique names'
  have color := resolves.color.unique resolves'.color fun _ _ _ => MeansColor.unique
  cases settings
  cases settings'
  rw [Settings.mk.injEq]
  exact ⟨prompt, logLevel, color⟩

section
variable {source : String} {document document' : Option Toml.Table} {env : Environment}

theorem stringEntry_eq (source : String) (table : Toml.Table) (key : String) :
    stringEntry source table key = textType.check source key (table.get? key) := by
  unfold stringEntry
  cases table.get? key with
  | none => rfl
  | some found => cases found <;> rfl

theorem booleanEntry_eq (source : String) (table : Toml.Table) (key : String) :
    booleanEntry source table key = flagType.check source key (table.get? key) := by
  unfold booleanEntry
  cases table.get? key with
  | none => rfl
  | some found => cases found <;> rfl

theorem level_warning : Settings.level "WARNING" = .ok .warning := by
  have found : LogLevel.ofText? "WARNING" = some .warning := by decide +kernel
  rw [Settings.level, found]

/-- What a layer of the file and the environment over it come to. -/
def settleLayer (env : Environment) (layer : Layer) : Except SettingsError Settings := do
  let logLevel ← level ((nonempty env.logLevel <|> layer.logLevel).getD "WARNING")
  return {
    prompt := (nonempty env.prompt <|> layer.prompt).getD "> "
    logLevel
    color := ((nonempty env.color).map isColorOn <|> layer.color).getD true }

theorem resolve_eq_settleLayer (source : String) (document : Option Toml.Table) (env : Environment) :
    resolve source document env = document.elim (.ok {}) (documentLayer source) >>= settleLayer env := by
  unfold resolve
  cases document <;>
  · refine bind_congr fun layer => ?_
    rw [settleLayer]
    dsimp only
    cases nonempty env.logLevel <|> layer.logLevel with
    | none => rw [Option.getD_none, level_warning]
    | some text => rfl

/-- The layer of a table with the environment over it, entry by entry. -/
theorem tableLayer_settle (source : String) (table : Toml.Table) (env : Environment) :
    (tableLayer source table >>= settleLayer env) =
      settleKeys source env (table.get? "prompt") (table.get? "log_level") (table.get? "color") := by
  rw [tableLayer, stringEntry_eq, stringEntry_eq, booleanEntry_eq]
  simp only [settleKeys, KeyType.settle, Option.map_id, id_eq]
  cases textType.check source "prompt" (table.get? "prompt") with
  | error => rfl
  | ok prompt =>
    cases textType.check source "log_level" (table.get? "log_level") with
    | error => rfl
    | ok logLevel => cases flagType.check source "color" (table.get? "color") <;> rfl

/-- A document whose `[repl]` is a table, or missing, counts for its three entries. -/
theorem resolve_of_table (tabular : tableType.Fits (replValue document)) :
    resolve source document env =
      settleKeys source env (replEntry document "prompt") (replEntry document "log_level")
        (replEntry document "color") := by
  rw [resolve_eq_settleLayer]
  unfold replEntry
  cases repl : replValue document with
  | none =>
    -- A missing table is as good as an empty one.
    have empty : document.elim (.ok {}) (documentLayer source) = tableLayer source [] := by
      cases document with
      | none => rfl
      | some inner =>
        have missing : inner.get? "repl" = none := repl
        rw [Option.elim_some, documentLayer, missing]
        rfl
    rw [empty]
    exact tableLayer_settle source [] env
  | some found =>
    obtain ⟨table, rfl⟩ := tabular found repl
    obtain ⟨inner, rfl, here⟩ := Option.bind_eq_some_iff.mp repl
    rw [Option.elim_some, documentLayer, here]
    exact tableLayer_settle source table env

theorem resolve_of_misfit {found : Toml.Value} (repl : replValue document = some found)
    (misfit : tableType.Misfit found) : resolve source document env = .error (.notTable source found) := by
  obtain ⟨inner, rfl, here⟩ := Option.bind_eq_some_iff.mp repl
  rw [resolve_eq_settleLayer, Option.elim_some, documentLayer, here]
  cases found with
  | table table => exact absurd rfl (misfit table)
  | _ => rfl

theorem not_refusal {text : String} {level : LogLevel} (tabular : tableType.Fits (replValue document))
    (prompt : textType.Fits (replEntry document "prompt")) (logLevel : textType.Fits (replEntry document "log_level"))
    (color : flagType.Fits (replEntry document "color")) (effective : LevelText document env text)
    (names : NamesLevel text level) (error : SettingsError) : ¬ Refusal source document env error := by
  intro refusal
  cases refusal with
  | notTable repl misfit => exact tabular.not_misfit repl misfit
  | prompt entry misfit => exact prompt.not_misfit entry misfit
  | logLevel entry misfit => exact logLevel.not_misfit entry misfit
  | color entry misfit => exact color.not_misfit entry misfit
  | badLevel effective' unknown =>
    obtain rfl := effective.unique effective' fun _ _ _ first second => first.symm.trans second
    exact unknown level names

/-- Either something is refused, or nothing is and every setting has its source. -/
theorem resolve_cases (source : String) (document : Option Toml.Table) (env : Environment) :
    (∃ error, resolve source document env = .error error ∧ Refusal source document env error) ∨
      ∃ settings, resolve source document env = .ok settings ∧ (∀ error, ¬ Refusal source document env error) ∧
        Resolves document env settings := by
  rcases tableType.fits_or_misfit (replValue document) with tabular | ⟨found, repl, misfit⟩
  · rw [resolve_of_table tabular, settleKeys]
    -- The first entry that does not fit is the one told, and the level is looked at only when all of them do.
    rcases textType.settle_cases source "prompt" (fun _ => rfl) env.prompt (replEntry document "prompt") with
      ⟨found, entry, misfit, failed⟩ | ⟨promptFits, prompt, promptSettled, promptTaken⟩
    · exact .inl ⟨_, by rw [failed]; rfl, .prompt entry misfit⟩
    rcases textType.settle_cases source "log_level" (fun _ => rfl) env.logLevel (replEntry document "log_level") with
      ⟨found, entry, misfit, failed⟩ | ⟨levelFits, logLevel, levelSettled, levelTaken⟩
    · exact .inl ⟨_, by rw [promptSettled, failed]; rfl, .logLevel entry misfit⟩
    rcases flagType.settle_cases source "color" isColorOn_means env.color (replEntry document "color") with
      ⟨found, entry, misfit, failed⟩ | ⟨colorFits, color, colorSettled, colorTaken⟩
    · exact .inl ⟨_, by rw [promptSettled, levelSettled, failed]; rfl, .color entry misfit⟩
    rw [promptSettled, levelSettled, colorSettled]
    rcases level_cases (logLevel.getD "WARNING") with ⟨level, found, names⟩ | ⟨failed, unknown⟩
    · exact .inr ⟨⟨prompt.getD "> ", level, color.getD true⟩, by simp only [bind, Except.bind, found]; rfl,
        not_refusal tabular promptFits levelFits colorFits (levelTaken _) names,
        promptTaken _, ⟨_, levelTaken _, names⟩, colorTaken _⟩
    · exact .inl ⟨_, by simp only [bind, Except.bind, failed], .badLevel (levelTaken _) unknown⟩
  · exact .inl ⟨_, resolve_of_misfit repl misfit, .notTable repl misfit⟩

theorem refusal_of_resolve {error : SettingsError} (failed : resolve source document env = .error error) :
    Refusal source document env error := by
  rcases resolve_cases source document env with ⟨error', failed', refusal⟩ | ⟨settings, resolved, -, -⟩
  · cases failed.symm.trans failed'
    exact refusal
  · cases failed.symm.trans resolved

theorem resolve_error_iff :
    (∃ error, resolve source document env = .error error) ↔ ∃ error, Refusal source document env error := by
  constructor
  · rintro ⟨error, failed⟩
    exact ⟨error, refusal_of_resolve failed⟩
  · rintro ⟨error, refusal⟩
    rcases resolve_cases source document env with ⟨error', failed, -⟩ | ⟨settings, -, fine, -⟩
    · exact ⟨error', failed⟩
    · exact absurd refusal (fine error)

theorem resolve_ok_iff {settings : Settings} :
    resolve source document env = .ok settings ↔
      (∀ error, ¬ Refusal source document env error) ∧ Resolves document env settings := by
  rcases resolve_cases source document env with ⟨error, failed, refusal⟩ | ⟨settings', resolved, fine, resolves⟩
  · constructor
    · intro resolved
      cases failed.symm.trans resolved
    · exact fun ⟨fine, _⟩ => absurd refusal (fine error)
  · constructor
    · intro same
      cases resolved.symm.trans same
      exact ⟨fine, resolves⟩
    · rintro ⟨-, resolves'⟩
      rw [resolved, resolves.unique resolves']

theorem Agree.tabular (agree : Agree env document document') (tabular : tableType.Fits (replValue document)) :
    tableType.Fits (replValue document') := by
  rcases tableType.fits_or_misfit (replValue document') with tabular' | ⟨found, repl, misfit⟩
  · exact tabular'
  · exact absurd misfit (tabular.not_misfit ((agree.repl found misfit).mpr repl))

theorem Agree.resolve_eq (agree : Agree env document document') :
    resolve source document env = resolve source document' env := by
  rcases tableType.fits_or_misfit (replValue document) with tabular | ⟨found, repl, misfit⟩
  · rw [resolve_of_table tabular, resolve_of_table (agree.tabular tabular), settleKeys, settleKeys,
      agree.prompt.settle_eq, agree.logLevel.settle_eq, agree.color.settle_eq]
  · rw [resolve_of_misfit repl misfit, resolve_of_misfit ((agree.repl found misfit).mp repl) misfit]

theorem Stored.load_eq {files : Files} {path : Option Path} (stored : Stored files (path.getD defaultPath) document)
    (workingDirectory : String) (env : Environment) :
    load files workingDirectory path env = resolve (shownAs workingDirectory path) document env := by
  have found (source : String) : readDocument files (path.getD defaultPath) source = .ok document := by
    unfold readDocument
    cases stored with
    | absent missing => rw [missing]
    | parsed found decoded reads => simp only [found, decoded, reads]
  cases path <;>
  · rw [load, found]
    rfl

end

/-- Loading fails exactly where something is refused, and else takes every setting from the first of its sources.
Nothing else in the document plays a part, nor does an entry that fits and is overridden. -/
theorem load_per_key {files : Files} {path : Option Path} {document : Option Toml.Table} (workingDirectory : String)
    (env : Environment) (stored : Stored files (path.getD defaultPath) document) :
    ((∃ error, load files workingDirectory path env = .error error) ↔
      ∃ error, Refusal (shownAs workingDirectory path) document env error) ∧
    (∀ error, load files workingDirectory path env = .error error →
      Refusal (shownAs workingDirectory path) document env error) ∧
    (∀ settings, load files workingDirectory path env = .ok settings ↔
      (∀ error, ¬ Refusal (shownAs workingDirectory path) document env error) ∧ Resolves document env settings) ∧
    ∀ files' document', Stored files' (path.getD defaultPath) document' → Agree env document document' →
      load files' workingDirectory path env = load files workingDirectory path env := by
  rw [stored.load_eq]
  refine ⟨resolve_error_iff, fun error => refusal_of_resolve, fun settings => resolve_ok_iff, ?_⟩
  intro files' document' stored' agree
  rw [stored'.load_eq, agree.resolve_eq]

/-- Files with the same text at every path. -/
def everywhere (text : List Char) : Files := ⟨fun _ => some (.file (text.map fun c => UInt8.ofNat c.toNat))⟩

def shellText : List Char :=
  ['[', 'r', 'e', 'p', 'l', ']', '\n', 'p', 'r', 'o', 'm', 'p', 't', ' ', '=', ' ', '"', 'l', 'o', 'x', '>', ' ', '"',
    '\n', 'l', 'o', 'g', '_', 'l', 'e', 'v', 'e', 'l', ' ', '=', ' ', '"', 'l', 'o', 'u', 'd', '"', '\n', '[', 'o',
    't', 'h', 'e', 'r', ']', '\n', 'c', 'o', 'l', 'o', 'r', ' ', '=', ' ', '1', '\n']

def shellDocument : Toml.Table :=
  [("repl", .table [("prompt", .string "lox> "), ("log_level", .string "loud")]),
    ("other", .table [("color", .integer 1)])]

def plainText : List Char :=
  ['[', 'r', 'e', 'p', 'l', ']', '\n', 'p', 'r', 'o', 'm', 'p', 't', ' ', '=', ' ', '"', 'l', 'o', 'x', '>', ' ', '"',
    '\n']

def plainDocument : Toml.Table := [("repl", .table [("prompt", .string "lox> ")])]

def shellVariables : Environment := { prompt := some "", logLevel := some " debug ", color := some "Off" }

/-- The level in the file is unknown, but overridden; the prompt there stands, for its variable is empty. -/
theorem load_shell :
    Stored (everywhere shellText) defaultPath (some shellDocument) ∧
    load (everywhere shellText) "/" none shellVariables = .ok ⟨"lox> ", .debug, false⟩ ∧
    Resolves (some shellDocument) shellVariables ⟨"lox> ", .debug, false⟩ ∧
    load (everywhere plainText) "/" none shellVariables = .ok ⟨"lox> ", .debug, false⟩ := by
  have stored : Stored (everywhere shellText) defaultPath (some shellDocument) :=
    @Stored.parsed (everywhere shellText) defaultPath _ shellText shellDocument rfl rfl rfl
  have plain : Stored (everywhere plainText) defaultPath (some plainDocument) :=
    @Stored.parsed (everywhere plainText) defaultPath _ plainText plainDocument rfl rfl rfl
  have agree : Agree shellVariables (some shellDocument) (some plainDocument) := by
    refine ⟨?_, .same rfl, .overridden rfl (by decide) ?_ nofun, .same rfl⟩
    · intro found misfit
      exact ⟨fun repl => absurd (Option.some.inj repl).symm (misfit _),
        fun repl => absurd (Option.some.inj repl).symm (misfit _)⟩
    · intro found same
      exact ⟨"loud", (Option.some.inj same).symm⟩
  have loads : load (everywhere shellText) "/" none shellVariables = .ok ⟨"lox> ", .debug, false⟩ := rfl
  obtain ⟨-, -, resolves, others⟩ := @load_per_key (everywhere shellText) none _ "/" shellVariables stored
  exact ⟨stored, loads, ((resolves _).mp loads).2, (others _ _ plain agree).trans loads⟩

end Lox.Proofs

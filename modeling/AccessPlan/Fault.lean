import AccessPlan.Value.Spelling

/-!
# Faults

Why a request, a settings file or a plan is refused. A `Fault` is a cause; `Fault.report?` words it for
those faults that the library reports with a code, a message and details. A `Misuse` is a value that an
operation cannot work with at all; it has a cause and no wording.

* `Finding`: one fault of one field of a request, with the rule that the field breaks and its place.
* `Report`: code, message, details and cause, and the one-line `Report.text`.
-/

set_option autoImplicit false

namespace AccessPlan

/-! ## Misuse -/

/-- An operation got a value that it cannot work with. -/
inductive Misuse where
  | notText
  | notIterable
  | notMapping
  | notWritable
  | notKey
  | notTemplate
  | notNumeric
  /-- The hosts of a request were read that has none. -/
  | noHosts
  /-- A view was asked of an object that is no operation. -/
  | noView
  /-- A named part was asked of a value that has none. -/
  | noPart
  /-- A subscript was asked of a value that takes none of this kind. -/
  | badSubscript
  /-- A format was asked of a value that takes none. -/
  | noFormat
  | badNumeral
  | emptyNumeral
  /-- A number without a value was to become an integer. -/
  | notANumber
  | infinite
  | longInteger
  | unknownChoice
  | notPair
  | noSuchMoment
  | malformedTemplate
  | unknownName
  | unknownTruthWord
  /-- A label template asks for an argument by its number. -/
  | positional
  | outOfRange
  | undecodable
  /-- A text was to hold half of a surrogate pair. There are no such texts here. -/
  | loneSurrogate
  /-- A list that holds itself was to be gone through to its end. -/
  | endless
  /-- An argument is missing, unknown, given twice or has a name that is no text. -/
  | badArguments
  | readOnly
  | immutable
  /-- A code was assigned. -/
  | fixedCode
  | frozenField
  deriving DecidableEq, Repr

/-! ## Findings -/

/-- The rules that a field of a request may break. -/
inductive Rule where
  | missing
  | notText
  | notUtf8
  | emptyName
  | notSequence
  | tooFew
  | notMapping
  | unknownField
  | notRequest
  | emptyHost
  | noSubjects
  | longInteger
  deriving DecidableEq, Repr

namespace Rule

/-- The word for the kind of a rule. -/
def word : Rule → String
  | .missing => "missing"
  | .notText => "string_type"
  | .notUtf8 => "string_unicode"
  | .emptyName => "string_too_short"
  | .notSequence => "tuple_type"
  | .tooFew => "too_short"
  | .notMapping => "dict_type"
  | .unknownField => "extra_forbidden"
  | .notRequest => "model_type"
  | .emptyHost | .noSubjects | .longInteger => "value_error"

/-- Whether a rule is one about the content of a well-formed field. Its text stands alone in a report. -/
def isContentRule (r : Rule) : Bool := r.word == "value_error"

/-- What a rule demands. -/
def text : Rule → String
  | .missing => "Field required"
  | .notText => "Input should be a valid string"
  | .notUtf8 =>
    "Input should be a valid string, unable to parse raw data as a unicode string"
  | .emptyName => "String should have at least 1 character"
  | .notSequence => "Input should be a valid tuple"
  | .tooFew => "Tuple should have at least 1 item after validation, not 0"
  | .notMapping => "Input should be a valid dictionary"
  | .unknownField => "Extra inputs are not permitted"
  | .notRequest => "Input should be a valid dictionary or instance of AccessRequest"
  | .emptyHost => "hostlist entries must be non-empty strings"
  | .noSubjects => "both users and groups empty"
  | .longInteger => "Exceeds the limit (4300 digits) for integer string conversion; " ++
    "use sys.set_int_max_str_digits() to increase the limit"

/-- The text of a rule in a list of findings. -/
def message (r : Rule) : String := if r.isContentRule then "Value error, " ++ r.text else r.text

end Rule

/-- One step on the way to a faulty place: a name or an index. -/
inductive Step where
  | name (s : String)
  | index (i : Int)
  deriving DecidableEq, Repr

namespace Step

/-- A step as part of a dotted place. -/
def text : Step → String
  | .name s => s
  | .index i => toString i

/-- A step as a value. -/
def toValue : Step → Value
  | .name s => .text s
  | .index i => .int i

end Step

/-- A rule that is broken at a place. -/
structure Finding where
  rule : Rule
  place : List Step
  deriving DecidableEq, Repr

namespace Finding

/-- The place of a finding with dots between the steps. -/
def dotted (f : Finding) : String := joinTexts "." (f.place.map Step.text)

/-- What a report says of a finding: a content rule speaks for itself, any other follows its place. -/
def summary (f : Finding) : String :=
  if f.rule.isContentRule then f.rule.text
  else if f.dotted == "" then f.rule.message
  else f.dotted ++ ": " ++ f.rule.message

/-- A finding as a value. -/
def toValue (f : Finding) : Value := .map [
  (.text "type", .text f.rule.word),
  (.text "loc", .list (f.place.map Step.toValue)),
  (.text "msg", .text f.rule.message)]

end Finding

/-! ## Faults -/

/-- What is wrong with a settings file. -/
inductive SettingsProblem where
  | malformed (path : String)
  | notMapping (kind : String)
  | unknownSections (path : String) (names : List String)
  deriving DecidableEq, Repr

/-- What is wrong with the structure of a request file. -/
inductive RequestFileProblem where
  | malformed
  | notMapping (kind : String)
  | noRequests
  | requestsKind (kind : String)
  | namedNotMapping (name kind : String)
  | numberedNotMapping (index : Nat) (kind : String)
  | unnamed (index : Nat)
  | duplicate (name : String)
  deriving DecidableEq, Repr

/-- Why an operation of the library has no result. -/
inductive Fault where
  | misuse (m : Misuse)
  /-- The fields of a request break rules; `request` is its name in a request file. -/
  | rejected (findings : List Finding) (request : Option String)
  /-- A request was to be compiled that allows neither users nor groups. -/
  | emptySubjects
  | missingFile (path : String)
  | settings (problem : SettingsProblem)
  | requestFile (path : String) (problem : RequestFileProblem)
  /-- A plan holds an object that is no operation. -/
  | unsupported (kind : String)
  /-- A collaborator refused a call. -/
  | refused (message : String)
  deriving DecidableEq, Repr

namespace SettingsProblem

/-- The message for a settings file. -/
def message : SettingsProblem → String
  | .malformed path => "Invalid YAML in " ++ path
  | .notMapping kind => "Config must be a mapping, got " ++ kind
  | .unknownSections path names =>
    "Unknown config sections in " ++ path ++ ": " ++ joinTexts ", " names

end SettingsProblem

namespace RequestFileProblem

/-- The reason for which a request file is refused. -/
def reason : RequestFileProblem → String
  | .malformed => "invalid YAML"
  | .notMapping kind => "must be a mapping, got " ++ kind
  | .noRequests => "missing required 'requests' key"
  | .requestsKind kind => "'requests' must be a mapping or list, got " ++ kind
  | .namedNotMapping name kind => "request '" ++ name ++ "' must be a mapping, got " ++ kind
  | .numberedNotMapping index kind =>
    "request " ++ toString index ++ " must be a mapping, got " ++ kind
  | .unnamed index => "request " ++ toString index ++ " missing required key 'name'"
  | .duplicate name => "duplicate request name '" ++ name ++ "'"

end RequestFileProblem

/-! ## Reports -/

/-- The kinds of report. -/
inductive ReportKind where
  | plain
  | validation
  | fileNotFound
  | settings
  | requestFile
  | unsupported
  deriving DecidableEq, Repr

/-- What lies behind a report, if it is not the first to notice. -/
inductive Cause where
  | malformedYaml
  | findings
  deriving DecidableEq, Repr

/-- A fault in words: a code, a message, details by name and perhaps a cause. -/
structure Report where
  kind : ReportKind
  code : Value
  message : Value
  details : Value
  cause : Option Cause

/-- The codes of reports, by kind. -/
def ReportKind.code : ReportKind → String
  | .plain => ""
  | .validation => "REQUEST_VALIDATION_ERROR"
  | .fileNotFound => "CONFIG_NOT_FOUND"
  | .settings => "CONFIG_INVALID"
  | .requestFile => "REQUEST_FILE_INVALID"
  | .unsupported => "UNSUPPORTED_OPERATION"

/-- All codes, in order. -/
def ReportKind.codes : List String :=
  [validation, fileNotFound, settings, requestFile, unsupported].map ReportKind.code

namespace Report

/-- A report on one line: the code in brackets and the message. -/
def text (r : Report) : String := "[" ++ r.code.spell ++ "] " ++ r.message.spell

/-- A report of a kind with its code. -/
def ofKind (kind : ReportKind) (message : Value) (details : Mapping) (cause : Option Cause) :
    Report :=
  ⟨kind, .text kind.code, message, .map details, cause⟩

/-- The report that a request is refused; an absent list of findings counts as an empty one. -/
def validation (message : Value) (findings : Value) (more : Mapping) (cause : Option Cause) :
    Report :=
  ofKind .validation message ((.text "errors", findings.orElse (.list [])) :: more) cause

/-- The report that a file is missing. -/
def fileNotFound (path : Value) : Report :=
  ofKind .fileNotFound (.text ("Configuration file not found: " ++ path.spell))
    [(.text "config_path", path)] none

/-- The report that a request file is refused. -/
def requestFile (path reason : Value) (cause : Option Cause) : Report :=
  ofKind .requestFile
    (.text ("Invalid request file '" ++ path.spell ++ "': " ++ reason.spell))
    [(.text "file_path", path), (.text "reason", reason)] cause

/-- The report that no collaborator takes an object. -/
def unsupported (kind : String) : Report :=
  ofKind .unsupported (.text ("No collaborator for operation " ++ kind))
    [(.text "operation", .text kind)] none

end Report

namespace Fault

/-- The message of a list of findings is that of the first. -/
def findingsMessage (findings : List Finding) : String :=
  (findings.head?.map Finding.summary).getD "Invalid access request"

/-- The report of a fault. A misuse and the refusal of a collaborator have none. -/
def report? : Fault → Option Report
  | .misuse _ | .refused _ => none
  | .rejected findings request => some <|
    Report.validation (.text (findingsMessage findings)) (.list (findings.map Finding.toValue))
      (request.toList.map fun name => (.text "request", .text name)) (some .findings)
  | .emptySubjects => some <| Report.validation (.text Rule.noSubjects.text) .null [] none
  | .missingFile path => some <| Report.fileNotFound (.text path)
  | .settings problem => some <|
    Report.ofKind .settings (.text problem.message) []
      (match problem with | .malformed _ => some .malformedYaml | _ => none)
  | .requestFile path problem => some <|
    Report.requestFile (.text path) (.text problem.reason)
      (if problem = .malformed then some .malformedYaml else none)
  | .unsupported kind => some <| Report.unsupported kind

end Fault

/-- A result or a fault. -/
abbrev Outcome := Except Fault

/-- Fails for a misuse. -/
def misuse {α : Type} (m : Misuse) : Outcome α := .error (.misuse m)

/-- The value, or a misuse if there is none. -/
def orMisuse {α : Type} (m : Misuse) : Option α → Outcome α
  | some a => .ok a
  | none => misuse m

/-! ## Making a report from named fields -/

namespace ReportKind

/-- The names of the fields that a report of this kind must be made from, and of those it may be made
from. -/
def fields : ReportKind → List String × List String
  | .plain => (["code", "message"], ["details", "cause"])
  | .validation => ([], ["message", "errors", "cause"])
  | .fileNotFound => (["config_path"], ["cause"])
  | .settings => (["message"], ["details", "cause"])
  | .requestFile => (["file_path", "reason"], ["cause"])
  | .unsupported => (["operation"], ["cause"])

/-- Whether a report of this kind can be made from fields of these names. -/
def accepts (kind : ReportKind) (names : List String) : Bool :=
  kind.fields.1.all names.contains && names.all fun name =>
    kind.fields.1.contains name || kind.fields.2.contains name

end ReportKind

/-- The report of a kind that is made from named fields. A field of another name, or the lack of one that
the kind needs, is a misuse; absent details are empty. -/
def Report.ofFields (kind : ReportKind) (fields : Mapping) : Outcome Report :=
  let names := fields.filterMap fun e => match e.1 with | .text s => some s | _ => none
  let field (name : String) : Value := (fields.getText? name).getD .null
  let details : Value := (field "details").orElse (.map [])
  if !kind.accepts names then misuse .badArguments
  else .ok <| match kind with
    | .plain => ⟨kind, field "code", field "message", details, none⟩
    | .validation =>
      let message := (fields.getText? "message").getD (.text (Fault.findingsMessage []))
      .validation message (field "errors") [] none
    | .fileNotFound => .fileNotFound (field "config_path")
    | .settings => ⟨kind, .text kind.code, field "message", details, none⟩
    | .requestFile => .requestFile (field "file_path") (field "reason") none
    | .unsupported => .unsupported (field "operation").kindName

end AccessPlan

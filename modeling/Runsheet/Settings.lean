import Runsheet.Duration
import Runsheet.Text.Quoted
import Runsheet.Version
import Runsheet.Yaml.Value

/-!
The settings file: a document of a few known entries. Every mistake in it is reported with the place
where it is, before any entry is used.
-/
namespace Runsheet

inductive ColorMode
  | auto
  | always
  | never
  deriving DecidableEq, Repr

namespace ColorMode

def all : List ColorMode := [auto, always, never]

def name : ColorMode → String
  | auto => "auto"
  | always => "always"
  | never => "never"

def ofText? (t : Text) : Option ColorMode := all.find? fun m => Text.ofString m.name == t

/-- Whether to use color: not where it is refused, and by itself only on a terminal. -/
def isOn (mode : ColorMode) (refused terminal : Bool) : Bool :=
  match mode with
  | always => !refused
  | auto => !refused && terminal
  | never => false

end ColorMode

/-- The settings. A text that was not set is empty. -/
structure Settings where
  minVersion : Text := []
  knownTools : List Text := ["xml2ly", "xml2brl", "xml2xml", "xml2gmn", "msdl"]
  launchDelay : Duration := ⟨100000000⟩
  shell : Text := []
  color : ColorMode := .auto
  selects : List Text := []
  deriving DecidableEq, Repr

inductive SettingsError
  | malformed
  | notRepresentable
  | invalid (messages : List Text)
  | repeatedField
  | tooOld (required running : Text)
  deriving DecidableEq, Repr

namespace SettingsError

def message : SettingsError → Text
  | malformed => "parse config"
  | notRepresentable => "config is not representable as JSON"
  | invalid messages => "invalid config: " ++ Text.join "; " messages
  | repeatedField => "decode config"
  | tooOld required running =>
    "config requires iScheme " ++ required ++ " or later, this is " ++ running

end SettingsError

namespace Settings

open Yaml (Value Key)

/-- A text between single quotes, with escapes as between double ones. -/
def singleQuoted (t : Text) : Text :=
  let inner := ((t.quoted.drop 1).dropLast)
  "'" ++ go inner ++ "'"
where
  /-- Takes back the escapes of double quotes and escapes single ones. -/
  go : Text → Text
    | [] => []
    | 92 :: 34 :: rest => 34 :: go rest
    | 39 :: rest => 92 :: 39 :: go rest
    | b :: rest => b :: go rest

def mistake (place : List Text) (what : Text) : Text :=
  "at '" ++ (if place.isEmpty then "/" else place.flatMap fun step => "/" ++ step : Text) ++ "': " ++
    what

inductive TextRule
  | any
  | notEmpty
  | version
  | duration
  | select
  deriving DecidableEq, Repr

def isSelect (t : Text) : Bool :=
  match t.splitAt 58 with
  | [choice, label] => !choice.isEmpty && !label.isEmpty
  | _ => false

def TextRule.mistake? (rule : TextRule) (t : Text) : Option Text :=
  match rule with
  | any => none
  | notEmpty => if t.isEmpty then some "length must be >= 1, but got 0" else none
  | version =>
    if (Version.parse? t).isSome then none else some (singleQuoted t ++ " is not valid 'semver'")
  | duration =>
    if (Duration.parse? t).isSome then none
    else some (singleQuoted t ++ " is not valid 'go-duration'")
  | select => if isSelect t then none else some "does not match pattern '^[^:]+:[^:]+$'"

inductive Rule
  | text (rule : TextRule)
  | texts (rule : TextRule) (unique : Bool)
  | colorMode
  deriving DecidableEq, Repr

def wrongType (expected : String) (v : Value) : Text :=
  "expected " ++ Text.ofString expected ++ ", but got " ++ Text.ofString v.typeName

def checkText (rule : TextRule) (place : List Text) (v : Value) : List Text :=
  match v.dataText? with
  | some t => (rule.mistake? t).toList.map (mistake place)
  | none => [mistake place (wrongType "string" v)]

/-- The mistakes in the items of a list, of which the first has the given number. -/
def checkItems (rule : TextRule) (place : List Text) : Nat → List Value → List Text
  | _, [] => []
  | i, v :: rest => checkText rule (place ++ [Text.decimal i]) v ++ checkItems rule place (i + 1) rest

/-- The numbers of the first item that is the same as one before it, and of that one. -/
def firstRepeat? : (before : List Value) → List Value → Option (Nat × Nat)
  | _, [] => none
  | before, v :: rest =>
    match before.findIdx? (·.same v) with
    | some i => some (i, before.length)
    | none => firstRepeat? (before ++ [v]) rest

def checkUnique (place : List Text) (vs : List Value) : List Text :=
  match firstRepeat? [] vs with
  | some (i, j) =>
    [mistake place ("items at index " ++ Text.decimal i ++ " and " ++ Text.decimal j ++ " are equal")]
  | none => []

def Rule.check (rule : Rule) (place : List Text) (v : Value) : List Text :=
  match rule with
  | text r => checkText r place v
  | texts r unique =>
    match v with
    | .sequence items =>
      (if unique then checkUnique place items else []) ++ checkItems r place 0 items
    | _ => [mistake place (wrongType "array" v)]
  | colorMode =>
    if (v.dataText?.bind ColorMode.ofText?).isSome then []
    else [mistake place ("value must be one of " ++
      Text.join ", " (ColorMode.all.map fun m => Text.quoted m.name))]

/-- The entries there are and what they have to be. -/
def rules : List (String × Rule) :=
  [("minVersion", .text .version), ("knownTools", .texts .notEmpty true),
    ("launchDelay", .text .duration), ("shell", .text .any), ("color", .colorMode),
    ("selects", .texts .select false)]

def valueOf? (entries : List (Key × Value)) (name : String) : Option Value :=
  (entries.find? (·.1 == Key.text name)).map (·.2)

def unknownKeys (entries : List (Key × Value)) : List Text :=
  entries.filterMap fun (k, _) =>
    match k with
    | .text t => if rules.any fun r => Text.ofString r.1 == t then none else some t
    | _ => none

/-- The mistakes in the entries for which there are rules, in the order of the rules. -/
def checkKnown (entries : List (Key × Value)) : List Text :=
  rules.flatMap fun (name, rule) =>
    match valueOf? entries name with
    | some v => rule.check [Text.ofString name] v
    | none => []

def checkUnknown (entries : List (Key × Value)) : List Text :=
  let unknown := Text.sort ((unknownKeys entries).map singleQuoted)
  if unknown.isEmpty then []
  else [mistake [] ("additionalProperties " ++ Text.join ", " unknown ++ " not allowed")]

/-- The mistakes in a document: those in known entries first, then unknown entries. -/
def check (v : Value) : List Text :=
  match v with
  | .mapping entries => checkKnown entries ++ checkUnknown entries
  | _ => [mistake [] (wrongType "object" v)]

def textEntry (entries : List (Key × Value)) (name : String) (otherwise : Text) : Text :=
  ((valueOf? entries name).bind Value.spelling?).getD otherwise

def textsEntry (entries : List (Key × Value)) (name : String) (otherwise : List Text) : List Text :=
  match valueOf? entries name with
  | some (.sequence items) => items.filterMap Value.spelling?
  | _ => otherwise

def ofEntries (entries : List (Key × Value)) : Settings :=
  let standard : Settings := {}
  { minVersion := textEntry entries "minVersion" standard.minVersion
    knownTools := textsEntry entries "knownTools" standard.knownTools
    launchDelay :=
      (((valueOf? entries "launchDelay").bind Value.spelling?).bind Duration.parse?).getD
        standard.launchDelay
    shell := textEntry entries "shell" standard.shell
    color :=
      (((valueOf? entries "color").bind Value.spelling?).bind ColorMode.ofText?).getD standard.color
    selects := textsEntry entries "selects" standard.selects }

/-- Whether two keys at the top come to the same text. They may, where one of them is an alias. -/
def repeatsField (entries : List (Yaml.Node × Yaml.Node)) : Bool :=
  let keys := (entries.filter fun (k, _) => !k.isMerge).map fun (k, _) => k.key?
  go keys
where
  /-- Whether some key occurs again. -/
  go : List (Option Key) → Bool
    | [] => false
    | k :: rest => rest.contains k || go rest

/-- Whether a version is older than the least one that is required. A version that is not well formed
is never too old. -/
def isTooOld (required running : Text) : Bool :=
  match Version.parse? running, Version.parse? required with
  | some v, some w => v.compare w == .lt
  | _, _ => false

def ofMapping (node : Yaml.Node) (entries : List (Key × Value)) (running : Text) :
    Except SettingsError Settings :=
  let mistakes := check (.mapping entries)
  if !mistakes.isEmpty then .error (.invalid mistakes)
  else if (match node with
    | .mapping written => repeatsField written
    | _ => false) then .error .repeatedField
  else
    let settings := ofEntries entries
    if isTooOld settings.minVersion running then .error (.tooOld settings.minVersion running)
    else .ok settings

/-- Reads settings for a program of the given version. An empty document sets nothing. -/
def parse (source running : Text) : Except SettingsError Settings :=
  match Yaml.firstDocument source with
  | none => .error .malformed
  | some none => .ok {}
  | some (some node) =>
    match node.value with
    | none => .error .malformed
    | some .null => .ok {}
    | some v =>
      if !v.isRepresentable then .error .notRepresentable
      else
        match v with
        | .mapping entries => ofMapping node entries running
        | _ => .error (.invalid (check v))

end Settings

end Runsheet

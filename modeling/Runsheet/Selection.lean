import Runsheet.Axis
import Runsheet.Log
import Runsheet.Text.Blank

/-!
Which labels are in force. Directives of the command line come before the select statements of the
script, and a single choice falls back to its default label.
-/
namespace Runsheet

inductive Concern
  | choices
  | inputs
  | cases
  | blocks
  | parsing
  | scanning
  deriving DecidableEq, Repr

namespace Concern

/-- Every concern, in the order of their bits. -/
def all : List Concern := [choices, inputs, cases, blocks, parsing, scanning]

def name : Concern → String
  | choices => "choices"
  | inputs => "inputs"
  | cases => "cases"
  | blocks => "blocks"
  | parsing => "parsing"
  | scanning => "scanning"

def bit : Concern → Nat
  | choices => 1
  | inputs => 2
  | cases => 4
  | blocks => 8
  | parsing => 16
  | scanning => 32

def ofKind : AxisKind → Concern
  | .choice => choices
  | .input => inputs

end Concern

structure Trace where
  concerns : List Concern := []
  deriving DecidableEq, Repr

namespace Trace

def has (t : Trace) (c : Concern) : Bool := t.concerns.contains c

def ofBits (n : Nat) : Trace := ⟨Concern.all.filter fun c => n / c.bit % 2 == 1⟩

def bits (t : Trace) : Nat := (Concern.all.filter t.has).foldl (fun n c => n + c.bit) 0

end Trace

/-- A record in the journal of a run. A record without a concern is shown in every trace. -/
structure Entry where
  concern : Option Concern
  record : LogRecord
  deriving DecidableEq, Repr

/-- What a run tells as it goes: its warnings, and a journal with everything a trace can show. -/
structure Diary where
  warnings : List Diagnostic := []
  journal : List Entry := []
  deriving DecidableEq, Repr

def Diary.records (d : Diary) (trace : Trace) : List LogRecord :=
  (d.journal.filter fun e => e.concern.all trace.has).map Entry.record

/-- A request for one label of a choice, or for all of them. -/
structure Directive where
  choice : Text
  label : Text
  deriving DecidableEq, Repr

namespace Directive

def text (d : Directive) : Text := d.choice ++ ":" ++ d.label

def malformed (t : Text) : Text := "invalid select " ++ t.quoted ++ ": expected CHOICE:LABEL"

/-- Reads `CHOICE:LABEL`. The first colon divides; white space around either part is dropped, and
neither may be empty. -/
def parse (t : Text) : Except Text Directive :=
  match t.cut 58 with
  | none => .error (malformed t)
  | some (choice, label) =>
    if choice.trim.isEmpty || label.trim.isEmpty then .error (malformed t)
    else .ok ⟨choice.trim, label.trim⟩

end Directive

/-- A choice and one of its labels that takes part in the plan. -/
structure Selection where
  choice : Text
  label : Text
  deriving DecidableEq, Repr

/-- The declared choices and the selections made so far. -/
structure Resolver extends Diary where
  choices : Registry := { kind := .choice }
  selections : List Selection := []
  deriving DecidableEq, Repr

namespace Resolver

def note (r : Resolver) (concern : Option Concern) (record : LogRecord) : Resolver :=
  { r with journal := r.journal ++ [⟨concern, record⟩] }

def warn (r : Resolver) (w : Diagnostic) : Resolver :=
  { r with
    warnings := r.warnings ++ [w]
    journal := r.journal ++ [⟨none, { message := w.text, fields := [("pos", .text w.pos.text)] }⟩] }

/-- The choice that a select names. -/
def lookup (r : Resolver) (name : Text) (pos : Pos) : Except Diagnostic Axis :=
  match r.choices.get? name with
  | some axis => .ok axis
  | none => .error
      { kind := .unknownChoiceInSelect, pos
        text := "choice '" ++ name ++ "' in select is unknown"
        suggestion := Suggestion.closest name r.choices.names }

def expand (axis : Axis) (label : Text) (pos : Pos) : Except Diagnostic (List Text) :=
  if isAllLabels label then .ok axis.labels
  else if axis.hasLabel label then .ok [label]
  else .error
    { kind := .unknownLabelInSelect, pos
      text := "label '" ++ label ++ "' in select is not a label of choice '" ++ axis.name ++ "'"
      suggestion := Suggestion.closest label axis.labels }

def isSelected (r : Resolver) (choice label : Text) : Bool :=
  (r.choices.get? choice).any fun axis => axis.selected.contains label

def add (r : Resolver) (choice label : Text) : Resolver :=
  { r with
    choices := r.choices.modify choice fun axis => { axis with selected := axis.selected ++ [label] }
    selections := r.selections ++ [⟨choice, label⟩] }

/-- Selects a label, or warns that it is selected already. -/
def pick (choice : Text) (state : SelectionState) (pos : Pos) (r : Resolver) (label : Text) :
    Resolver :=
  if r.isSelected choice label then
    r.warn (.warn pos ("label '" ++ label ++ "' of choice '" ++ choice ++ "' is already selected"))
  else
    (r.note (some .choices)
      { message := "selected"
        fields := [("choice", .text choice), ("label", .text label), ("state", .text state.name)] }
      ).add choice label

def select (r : Resolver) (axis : Axis) (label : Text) (state : SelectionState) (pos : Pos) :
    Resolver × Option Diagnostic :=
  match expand axis label pos with
  | .error d => (r, some d)
  | .ok labels =>
    (labels.foldl (pick axis.name state pos)
      { r with choices := r.choices.modify axis.name ({ · with state }) }, none)

/-- A select statement of the script. It is passed over, with a warning, when a directive names the
same choice. -/
def selectInScript (r : Resolver) (directives : List Directive) (choice label : Text) (pos : Pos) :
    Resolver × Option Diagnostic :=
  match r.lookup choice pos with
  | .error d => (r, some d)
  | .ok axis =>
    if directives.any (·.choice == choice) then
      (r.warn (.warn pos ("'select' label '" ++ label ++ "' for choice '" ++ choice ++
        "' ignored, it is overridden by a '--select' option")), none)
    else r.select axis label .setInScript pos

def applyDirective (r : Resolver) (d : Directive) : Resolver × Option Diagnostic :=
  match r.lookup d.choice .none with
  | .error e => (r, some e)
  | .ok axis =>
    match r.select axis d.label .suppliedByOption .none with
    | (r', some e) => (r', some e)
    | (r', none) =>
      if axis.usedInCase then (r', none)
      else (r'.warn (.warn .none ("choice '" ++ d.choice ++ "' supplied by option '--select " ++
        d.text ++ "' has not been used in any case statement")), none)

/-- The directives of the command line in order, up to the first that fails. -/
def applyDirectives (r : Resolver) : List Directive → Resolver × Option Diagnostic
  | [] => (r, none)
  | d :: rest =>
    match r.applyDirective d with
    | (r', some e) => (r', some e)
    | (r', none) => r'.applyDirectives rest

/-- The final selections. When nothing is selected, a single choice gives its default label; several
choices are ambiguous once a case statement over a choice occurred. -/
def resolve (r : Resolver) (choiceCaseOccurred : Bool) (pos : Pos) :
    Resolver × Except Diagnostic (List Selection) :=
  if !r.selections.isEmpty then (r, .ok r.selections)
  else match r.choices.axes with
    | [] => (r, .ok [])
    | [axis] =>
      match axis.defaultLabel? with
      | none => (r, .error
          { kind := .missingDefaultLabel, pos
            text := "no label selected for choice '" ++ axis.name ++
              "' and it has no default label" })
      | some label =>
        let r' := (r.note (some .choices)
          { message := "using default label"
            fields := [("choice", .text axis.name), ("label", .text label)] }).add axis.name label
        (r', .ok r'.selections)
    | axes =>
      if !choiceCaseOccurred then (r, .ok [])
      else (r, .error
        { kind := .ambiguousChoice, pos
          text := Text.decimal axes.length ++ " choices are declared (" ++
            Text.join ", " r.choices.names ++
            ") but none is selected, use 'select' or '--select'"
          related := r.choices.names })

end Resolver

end Runsheet

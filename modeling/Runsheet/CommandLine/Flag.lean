import Runsheet.Text.Csv
import Runsheet.Text.Quoted

/-!
The flags of the command line. Flags and operands may stand in any order; `--` ends the flags.
-/
namespace Runsheet

inductive Flag
  | config
  | debug
  | displayOptions
  | displayTokens
  | displayToolAndInput
  | dump
  | help
  | input
  | noColor
  | noLaunch
  | planOut
  | select
  | trace
  | version
  | watch
  deriving DecidableEq, Repr

/-- What a flag takes: nothing but perhaps a truth value, one text where the last counts, a text each
time it is given, or texts with commas between them. -/
inductive FlagKind
  | switch
  | text
  | texts
  | list
  deriving DecidableEq, Repr

namespace Flag

/-- Every flag, in the order of their names. -/
def all : List Flag :=
  [config, debug, displayOptions, displayTokens, displayToolAndInput, dump, help, input, noColor,
    noLaunch, planOut, select, trace, version, watch]

/-- The name of a flag, without dashes. -/
def name : Flag → String
  | config => "config"
  | debug => "debug"
  | displayOptions => "display-options"
  | displayTokens => "display-tokens"
  | displayToolAndInput => "display-tool-and-input"
  | dump => "dump"
  | help => "help"
  | input => "input"
  | noColor => "no-color"
  | noLaunch => "no-launch"
  | planOut => "plan-out"
  | select => "select"
  | trace => "trace"
  | version => "version"
  | watch => "watch"

/-- The letter that stands for a flag. Only switches have one. -/
def letter? : Flag → Option Char
  | help => some 'h'
  | version => some 'v'
  | _ => none

def kind : Flag → FlagKind
  | config | planOut => .text
  | input | select => .texts
  | trace => .list
  | _ => .switch

def title (f : Flag) : Text :=
  match f.letter? with
  | some c => ("-" ++ c.toString ++ ", --" ++ f.name : String)
  | none => ("--" ++ f.name : String)

end Flag

structure Options where
  config : Text := ".ischeme.yaml"
  debug : Bool := false
  displayOptions : Bool := false
  displayTokens : Bool := false
  displayToolAndInput : Bool := false
  dump : Bool := false
  help : Bool := false
  inputs : List Text := []
  noColor : Bool := false
  noLaunch : Bool := false
  planOut : Text := []
  selects : List Text := []
  trace : List Text := []
  version : Bool := false
  watch : Bool := false
  deriving DecidableEq, Repr

namespace Options

/-- Turns a switch on or off; a flag of another kind is left alone. -/
def turn (o : Options) (f : Flag) (on : Bool) : Options :=
  match f with
  | .debug => { o with debug := on }
  | .displayOptions => { o with displayOptions := on }
  | .displayTokens => { o with displayTokens := on }
  | .displayToolAndInput => { o with displayToolAndInput := on }
  | .dump => { o with dump := on }
  | .help => { o with help := on }
  | .noColor => { o with noColor := on }
  | .noLaunch => { o with noLaunch := on }
  | .version => { o with version := on }
  | .watch => { o with watch := on }
  | .config | .input | .planOut | .select | .trace => o

/-- Takes texts for a flag; a switch is left alone. -/
def give (o : Options) (f : Flag) (values : List Text) : Options :=
  match f with
  | .config => { o with config := values.getLastD o.config }
  | .planOut => { o with planOut := values.getLastD o.planOut }
  | .input => { o with inputs := o.inputs ++ values }
  | .select => { o with selects := o.selects ++ values }
  | .trace => { o with trace := o.trace ++ values }
  | _ => o

end Options

inductive FlagError
  | malformed (argument : Text)
  | unknown (name : Text)
  | unknownLetter (letter : UInt8) (cluster : Text)
  | missingValue (flag : Flag)
  | invalid (flag : Flag) (value cause : Text)
  deriving DecidableEq, Repr

namespace FlagError

/-- A letter between single quotes. A byte outside ASCII is shown by the first byte that it would take
as a character of its own. -/
def shownLetter (b : UInt8) : Text :=
  let code := if b < 0x80 then b.toNat else if b < 0xc0 then 0xc2 else 0xc3
  "'" ++ (if code = 34 then [34] else if code = 39 then "\\'" else
    (Rune.char (Char.ofNat code)).quoted : Text) ++ "'"

def message : FlagError → Text
  | malformed argument => "bad flag syntax: " ++ argument
  | unknown name => "unknown flag: --" ++ name
  | unknownLetter letter cluster =>
    "unknown shorthand flag: " ++ shownLetter letter ++ " in -" ++ cluster
  | missingValue flag => "flag needs an argument: --" ++ flag.name
  | invalid flag value cause =>
    "invalid argument " ++ value.quoted ++ " for " ++ flag.title.quoted ++ " flag: " ++ cause

end FlagError

def truth? (t : Text) : Option Bool :=
  if ["1", "t", "T", "true", "TRUE", "True"].any fun s => t == Text.ofString s then some true
  else if ["0", "f", "F", "false", "FALSE", "False"].any fun s => t == Text.ofString s then
    some false
  else none

namespace Options

def set (o : Options) (f : Flag) (value : Text) : Except FlagError Options :=
  match f.kind with
  | .switch =>
    match truth? value with
    | some on => .ok (o.turn f on)
    | none =>
      .error (.invalid f value ("strconv.ParseBool: parsing " ++ value.quoted ++ ": invalid syntax"))
  | .text | .texts => .ok (o.give f [value])
  | .list =>
    if value.isEmpty then .ok o
    else
      match Csv.firstRecord value with
      | .ok values => .ok (o.give f values)
      | .error fault => .error (.invalid f value fault.message)

/-- Takes letters in a row. A value after `=` ends the row, and what goes on with `test.` is passed
over. -/
def setLetters (o : Options) (flags : List Flag) : Text → Except FlagError Options
  | [] => .ok o
  | b :: rest =>
    if Text.startsWith (b :: rest) "test." then .ok o
    else
      match flags.find? fun f => f.letter?.map Text.ascii == some b with
      | none => .error (.unknownLetter b (b :: rest))
      | some f =>
        match rest with
        | 61 :: c :: value => o.set f (c :: value)
        | _ =>
          match o.set f "true" with
          | .ok o => o.setLetters flags rest
          | .error e => .error e

end Options

/-- A command line: what its flags ask for, and its operands. -/
structure CommandLine where
  options : Options := {}
  operands : List Text := []
  deriving DecidableEq, Repr

namespace CommandLine

/-- Reads arguments with the given flags, after some that have been read. -/
def readFrom (flags : List Flag) (c : CommandLine) : List Text → Except FlagError CommandLine
  | [] => .ok c
  | argument :: rest =>
    match argument with
    | [45, 45] => .ok { c with operands := c.operands ++ rest }
    | 45 :: 45 :: long =>
      let name := long.takeWhile (· != 61)
      if name.isEmpty || name.head? == some 45 then .error (.malformed argument)
      else
        match flags.find? fun f => Text.ofString f.name == name with
        | none => .error (.unknown name)
        | some f =>
          match long.drop name.length, f.kind, rest with
          | _ :: value, _, rest =>
            match c.options.set f value with
            | .ok options => readFrom flags { c with options } rest
            | .error e => .error e
          | [], .switch, rest => readFrom flags { c with options := c.options.turn f true } rest
          | [], _, value :: rest =>
            match c.options.set f value with
            | .ok options => readFrom flags { c with options } rest
            | .error e => .error e
          | [], _, [] => .error (.missingValue f)
    | 45 :: b :: letters =>
      match c.options.setLetters flags (b :: letters) with
      | .ok options => readFrom flags { c with options } rest
      | .error e => .error e
    | _ => readFrom flags { c with operands := c.operands ++ [argument] } rest

/-- Reads the arguments of a program; one that has no version has no flag to ask for it. -/
def parse (version : Text) (arguments : List Text) : Except FlagError CommandLine :=
  readFrom (if version.isEmpty then Flag.all.filter (· != .version) else Flag.all) {} arguments

end CommandLine

end Runsheet

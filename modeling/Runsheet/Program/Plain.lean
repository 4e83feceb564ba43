import Runsheet.Program.Printf

/-!
The programs that need nothing but their arguments: `echo`, `printf`, `sleep`, `true` and `false`.
-/
namespace Runsheet

namespace Program

/-- How a program ended: with an exit code, or killed by a signal. -/
inductive Ending
  | exited (code : Nat)
  | killed (signal : Nat)
  deriving DecidableEq, Repr

structure Effect where
  out : Text := []
  err : Text := []
  ending : Ending := .exited 0
  deriving DecidableEq, Repr

def Effect.exit (code : Nat) : Effect := { ending := .exited code }

/-- The words of an `echo`, with a newline unless the output was ended before. -/
def echoed (words : List Text) (newline : Bool) (read : Option (Text → Escape)) : Text :=
  let line := Text.join " " words ++ Text.onlyIf newline "\n"
  match read with
  | none => line
  | some read => (unescape read line).1

/-- Whether a word holds flags of the stand-alone `echo`. -/
def isEchoFlags : Text → Bool
  | 45 :: letters => !letters.isEmpty && letters.all (Text.ofString "neE").contains
  | _ => false

/-- `echo` as a program of its own: `-n` leaves out the newline, `-e` turns backslash sequences on and
`-E` off. -/
def standaloneEcho (arguments : List Text) : Effect :=
  let flags := (arguments.takeWhile isEchoFlags).flatMap List.tail
  let words := arguments.dropWhile isEchoFlags
  let escapes := ((flags.filter (· != Text.ascii 'n')).getLast?) == some (Text.ascii 'e')
  { out := echoed words (!flags.contains (Text.ascii 'n'))
      (if escapes then some (Escape.withHex Escape.inArgument) else none) }

/-- `echo` as the shell has it: a first `-n` leaves out the newline, backslash sequences always
count. -/
def shellEcho (arguments : List Text) : Effect :=
  match arguments with
  | [45, 110] :: words => { out := echoed words false (some Escape.inArgument) }
  | words => { out := echoed words true (some Escape.inArgument) }

/-- What a program of this family says when it is called wrongly. -/
def misused (name what : Text) : Effect :=
  { err := name ++ ": " ++ what ++ "\nTry '" ++ name ++ " --help' for more information.\n"
    ending := .exited 1 }

/-- `printf` as a program of its own. -/
def standalonePrintf (name : Text) (arguments : List Text) : Effect :=
  match (if arguments.head? == some "--" then arguments.tail else arguments) with
  | [] => misused name "missing operand"
  | format :: rest =>
    let (out, err, code) := Printf.run { builtin := false, lead := name ++ ": " } format rest
    { out, err, ending := .exited code }

/-- `printf` as the shell has it. -/
def shellPrintf (lead : Text) (arguments : List Text) : Effect :=
  let refused (what : Text) : Effect := { err := lead ++ what ++ "\n", ending := .exited 2 }
  let run (arguments : List Text) : Effect :=
    match arguments with
    | [] => refused "usage: printf format [arg ...]"
    | format :: rest =>
      let (out, err, code) := Printf.run { builtin := true, lead } format rest
      { out, err, ending := .exited code }
  match arguments with
  | [45, 45] :: rest => run rest
  | (45 :: letter :: _) :: _ => refused ("Illegal option -" ++ [letter])
  | _ => run arguments

/-- Whether a text is a time to sleep: a decimal number, perhaps with a unit. -/
def isInterval (t : Text) : Bool :=
  let hasUnit := t.getLast?.any fun b => (Text.ofString "smhd").contains b
  let number := (if hasUnit then t.dropLast else t).dropWhile fun b => b == 32 || (9 ≤ b && b ≤ 13)
  match Decimal.parse? number with
  | some d => !d.negative || d.mantissa == 0
  | none => false

/-- What is wrong with a flag of a program that has none; a single dash is no flag. -/
def strayFlag? : Text → Option Text
  | 45 :: 45 :: rest => some ("unrecognized option '--" ++ rest ++ "'")
  | 45 :: letter :: _ => some ("invalid option -- '" ++ [letter] ++ "'")
  | _ => none

def badInterval (t : Text) : Text := "invalid time interval " ++ shownWord t

/-- `sleep`. The time it takes is not of interest. -/
def pause (name : Text) (arguments : List Text) : Effect :=
  match (arguments.takeWhile (· != [45, 45])).findSome? strayFlag? with
  | some what => misused name what
  | none =>
    match arguments.erase [45, 45] with
    | [] => misused name "missing operand"
    | intervals =>
      match intervals.filter (!isInterval ·) with
      | [] => {}
      | bad => misused name (Text.join ("\n" ++ name ++ ": ") (bad.map badInterval))

end Program

end Runsheet

import Runsheet.Blake2b
import Runsheet.Cbor
import Runsheet.Plan

/-!
Plans as files. Equal plans have equal bytes: the body is written in one canonical form, and its
hash names the plan.
-/
namespace Runsheet

/-- The canonical form of a command. The choice and the label are left out when they are empty. -/
def Command.canonical (c : Command) : Text :=
  let named (key : Nat) (t : Text) : List (Nat × Text) :=
    if t.isEmpty then [] else [(key, Cbor.text t)]
  Cbor.map ([(1, Cbor.text c.tool), (2, Cbor.text c.input)] ++ named 3 c.choice ++ named 4 c.label ++
    [(5, match c.args with
      | some args => Cbor.array (args.map Cbor.text)
      | none => Cbor.null)])

namespace Plan

def maxCommands : Nat := 65536

def maxBodySize : Nat := 33554432

def body (p : Plan) : Text :=
  Cbor.map [(1, match p.commands with
    | some commands => Cbor.array (commands.map Command.canonical)
    | none => Cbor.null)]

def canonical (p : Plan) : Except Text Text :=
  if p.size > maxCommands then
    .error ("plan has " ++ Text.decimal p.size ++ " commands, maximum is " ++
      Text.decimal maxCommands)
  else .ok p.body

def digest (p : Plan) : Except Text Text := p.canonical.map Blake2b.sum256

/-- The first bytes of a plan file. -/
def magic : Text := "ISCH"

def version : Nat := 1

/-- The given number of bytes of a number, least significant first. -/
def littleEndian (width n : Nat) : Text := (Cbor.bigEndian width n).reverse

def toFile (p : Plan) : Except Text Text :=
  match p.canonical with
  | .error e => .error e
  | .ok body =>
    if body.length > maxBodySize then
      .error ("plan body " ++ Text.decimal body.length ++ " bytes exceeds maximum " ++
        Text.decimal maxBodySize)
    else .ok (magic ++ littleEndian 2 version ++ littleEndian 4 body.length ++ body)

inductive ReadError
  | preamble (found : Nat)
  | magic (found : Text)
  | version (found : Nat)
  | bodySize (found : Nat)
  | body (found : Nat)
  | content
  deriving DecidableEq, Repr

/-- How a text ends too early: at once, or in the middle. -/
def endOfText (found : Nat) : Text := if found = 0 then "EOF" else "unexpected EOF"

/-- The error in words. What is wrong inside a body is not told. -/
def ReadError.message? : ReadError → Option Text
  | preamble found => some ("read preamble: " ++ endOfText found)
  | magic found =>
    some ("invalid magic: got " ++ found.quoted ++ ", expected " ++ Plan.magic.quoted)
  | version found =>
    some ("unsupported version: got 0x" ++ Text.hexFixed 4 found ++ ", expected 0x" ++
      Text.hexFixed 4 Plan.version)
  | bodySize found =>
    some ("body length " ++ Text.decimal found ++ " exceeds maximum " ++ Text.decimal maxBodySize)
  | body found => some ("read body: " ++ endOfText found)
  | content => none

def commandOfItem? (i : Cbor.Item) : Option Command := do
  let fields ← i.fields? [1, 2, 3, 4, 5]
  let textField (n : Nat) : Option Text :=
    match Cbor.field? fields n with
    | some value => value.text?
    | none => some []
  let args ← match Cbor.field? fields 5 with
    | some value => value.list? Cbor.Item.text?
    | none => some none
  return { tool := ← textField 1, input := ← textField 2, choice := ← textField 3,
           label := ← textField 4, args }

def ofItem? (i : Cbor.Item) : Option Plan := do
  let fields ← i.fields? [1]
  match Cbor.field? fields 1 with
  | some value => return ⟨← value.list? commandOfItem?⟩
  | none => return ⟨none⟩

def ofBody? (body : Text) : Option Plan := (Cbor.parse body).bind ofItem?

/-- What reading a plan file gives: the plan, the hash of the body, and what follows in the file. -/
structure Contents where
  plan : Plan
  digest : Text
  rest : Text
  deriving DecidableEq, Repr

def ofFile (file : Text) : Except ReadError Contents :=
  if file.length < 10 then .error (.preamble file.length)
  else
    let found := file.take 4
    let format := Cbor.number (file.drop 4 |>.take 2).reverse
    let size := Cbor.number (file.drop 6 |>.take 4).reverse
    let rest := file.drop 10
    if found ≠ magic then .error (.magic found)
    else if format ≠ version then .error (.version format)
    else if size > maxBodySize then .error (.bodySize size)
    else if rest.length < size then .error (.body rest.length)
    else match ofBody? (rest.take size) with
      | none => .error .content
      | some plan =>
        .ok { plan, digest := Blake2b.sum256 (rest.take size), rest := rest.drop size }

end Plan

end Runsheet

import Runsheet.Proofs.Script.Tree
import Runsheet.Token

/-! How a script may be spelled. The spelling is said over symbols, which are tokens without their
place in a source: what a symbol is, what it stands for, and whether it stands apart from the one
before it. -/
namespace Runsheet

/-- A token as the grammar sees it. -/
structure Symbol where
  kind : TokenKind
  value : Text
  spaced : Bool
  deriving DecidableEq, Repr

def Token.symbol (t : Token) : Symbol := ⟨t.kind, t.value, t.spaced⟩

@[simp] theorem Token.kind_symbol (t : Token) : t.symbol.kind = t.kind := rfl

abbrev Spelling := List Symbol → Prop

namespace Spelling

def empty : Spelling := (· = [])

def one (p : Symbol → Prop) : Spelling := fun symbols => ∃ s, symbols = [s] ∧ p s

def sign (kind : TokenKind) : Spelling := one (·.kind = kind)

def keyword (k : Keyword) : Spelling := sign (.keyword k)

def name (value : Text) : Spelling := one fun s => s.kind = .name ∧ s.value = value

def next (first second : Spelling) : Spelling := fun symbols =>
  ∃ own more, symbols = own ++ more ∧ first own ∧ second more

/-- One or more string literals, whose contents are put together. -/
def strings (value : Text) : Spelling := fun symbols =>
  symbols ≠ [] ∧ (∀ s ∈ symbols, s.kind = .string) ∧ symbols.flatMap Symbol.value = value

/-- A tool or a source: a name or strings. -/
def word (value : Text) : Spelling := fun symbols => name value symbols ∨ strings value symbols

/-- A label: a name, a number, a reserved word or strings. -/
def label (value : Text) : Spelling := fun symbols =>
  one (fun s => s.kind.isWord = true ∧ s.value = value) symbols ∨ strings value symbols

def labels (first : Text) : List Text → Spelling
  | [] => label first
  | second :: more => next (label first) (next (sign .bar) (labels second more))

/-- Two words that touch a sign between them. Before a colon the first word is no reserved word
other than `default`, since it would start a statement. -/
def pair (value : Text) : Spelling := fun symbols =>
  ∃ x sign y, symbols = [x, sign, y] ∧ x.kind.isWord = true ∧ y.kind.isWord = true ∧
    sign.spaced = false ∧ y.spaced = false ∧
    (sign.kind = .equals ∧ value = x.value ++ [61] ++ y.value ∨
      sign.kind = .colon ∧ value = x.value ++ [58] ++ y.value ∧
        ∀ k, x.kind = .keyword k → k = .default)

/-- The value of an option, if it has one: strings, one word, or a pair of words. -/
def value : Option Text → Spelling
  | none => empty
  | some v => fun symbols => label v symbols ∨ pair v symbols

def setting (name : Text) (v : Option Text) : Spelling :=
  next (one fun s => s.kind = .option ∧ s.value = name) (value v)

def named (k : Keyword) (value : Text) : Spelling :=
  next (keyword k) (next (sign .colon) (next (word value) (sign .semicolon)))

/-- The default of a declaration, if it has one. -/
def default : Option Text → Spelling
  | none => empty
  | some l => next (sign .comma) (next (keyword .default) (next (sign .colon) (label l)))

def axisKeyword : AxisKind → Keyword
  | .choice => .choice
  | .input => .input

def declaration (kind : AxisKind) (axis first : Text) (more : List Text) (l : Option Text) :
    Spelling :=
  next (keyword (axisKeyword kind)) (next (name axis) (next (sign .colon)
    (next (labels first more) (next (default l) (sign .semicolon)))))

def select (choice l : Text) : Spelling :=
  next (keyword .select) (next (name choice) (next (sign .colon)
    (next (label l) (sign .semicolon))))

def every (choice : Text) : Spelling :=
  next (keyword .every) (next (name choice) (sign .semicolon))

/-- A case statement, given how its alternatives are spelled. -/
def case (subject : Text) (alternatives : Spelling) : Spelling :=
  next (keyword .case) (next (name subject) (next (sign .colon)
    (next alternatives (sign .semicolon))))

/-- An alternative, given how its elements are spelled. -/
def alternative (first : Text) (more : List Text) (body : Spelling) : Spelling :=
  next (labels first more) (next (sign .colon) (next body (sign .semicolon)))

/-- Some tokens are spelled as asked for, and the rest comes after them. -/
def Takes (p : Spelling) (tokens rest : List Token) : Prop :=
  ∃ used, tokens = used ++ rest ∧ p (used.map Token.symbol)

section takes

variable {tokens rest : List Token}

/-- Nothing at all is taken exactly when all tokens are left. -/
@[simp] theorem takes_empty : empty.Takes tokens rest ↔ tokens = rest := by
  simp [Takes, empty]

/-- One symbol is taken exactly when the first token has a fitting one. -/
@[simp] theorem takes_one {p : Symbol → Prop} :
    (one p).Takes tokens rest ↔ ∃ t, tokens = t :: rest ∧ p t.symbol := by
  constructor
  · rintro ⟨used, rfl, s, hUsed, hs⟩
    obtain ⟨t, rfl, rfl⟩ := List.map_eq_singleton_iff.mp hUsed
    exact ⟨t, rfl, hs⟩
  · rintro ⟨t, rfl, ht⟩
    exact ⟨[t], rfl, t.symbol, rfl, ht⟩

@[simp] theorem takes_sign {kind : TokenKind} :
    (sign kind).Takes tokens rest ↔ ∃ t, tokens = t :: rest ∧ t.kind = kind :=
  takes_one

@[simp] theorem takes_keyword {k : Keyword} :
    (keyword k).Takes tokens rest ↔ ∃ t, tokens = t :: rest ∧ t.kind = .keyword k :=
  takes_one

@[simp] theorem takes_name {value : Text} :
    (name value).Takes tokens rest ↔ ∃ t, tokens = t :: rest ∧ t.kind = .name ∧ t.value = value :=
  takes_one

/-- Two things in a row are taken one after the other, with some tokens left in between. -/
@[simp] theorem takes_next {p q : Spelling} :
    (next p q).Takes tokens rest ↔ ∃ middle, p.Takes tokens middle ∧ q.Takes middle rest := by
  constructor
  · rintro ⟨used, rfl, _, _, hUsed, hp, hq⟩
    obtain ⟨own, more, rfl, rfl, rfl⟩ := List.map_eq_append_iff.mp hUsed
    exact ⟨more ++ rest, ⟨own, List.append_assoc own more rest, hp⟩, ⟨more, rfl, hq⟩⟩
  · rintro ⟨_, ⟨own, rfl, hp⟩, ⟨more, rfl, hq⟩⟩
    exact ⟨own ++ more, (List.append_assoc own more rest).symm, _, _, List.map_append, hp, hq⟩

/-- Two words with a sign between them make one value only if the three tokens touch. -/
theorem takes_pair {value : Text} :
    (pair value).Takes tokens rest ↔
      ∃ x sign y, tokens = x :: sign :: y :: rest ∧ x.kind.isWord = true ∧ y.kind.isWord = true ∧
        sign.spaced = false ∧ y.spaced = false ∧
        (sign.kind = .equals ∧ value = x.value ++ [61] ++ y.value ∨
          sign.kind = .colon ∧ value = x.value ++ [58] ++ y.value ∧
            ∀ k, x.kind = .keyword k → k = .default) := by
  constructor
  · rintro ⟨used, rfl, _, _, _, hUsed, h⟩
    obtain ⟨x, tail, rfl, rfl, hTail⟩ := List.map_eq_cons_iff.mp hUsed
    obtain ⟨sign, last, rfl, rfl, hLast⟩ := List.map_eq_cons_iff.mp hTail
    obtain ⟨y, rfl, rfl⟩ := List.map_eq_singleton_iff.mp hLast
    exact ⟨x, sign, y, rfl, h⟩
  · rintro ⟨x, sign, y, rfl, h⟩
    exact ⟨[x, sign, y], rfl, _, _, _, rfl, h⟩

/-- A value that is there is spelt like a label or as a pair. -/
theorem takes_value_some {v : Text} :
    (value (some v)).Takes tokens rest ↔ (label v).Takes tokens rest ∨ (pair v).Takes tokens rest := by
  constructor
  · rintro ⟨used, hTokens, h | h⟩
    · exact Or.inl ⟨used, hTokens, h⟩
    · exact Or.inr ⟨used, hTokens, h⟩
  · rintro (⟨used, hTokens, h⟩ | ⟨used, hTokens, h⟩)
    · exact ⟨used, hTokens, Or.inl h⟩
    · exact ⟨used, hTokens, Or.inr h⟩

/-- A label is spelt by one token of any sort of word, or by strings. -/
theorem takes_label {v : Text} :
    (label v).Takes tokens rest ↔
      (∃ t, tokens = t :: rest ∧ t.kind.isWord = true ∧ t.value = v) ∨
        (strings v).Takes tokens rest := by
  constructor
  · rintro ⟨used, hTokens, h | h⟩
    · exact Or.inl (takes_one.mp ⟨used, hTokens, h⟩)
    · exact Or.inr ⟨used, hTokens, h⟩
  · rintro (h | ⟨used, hTokens, h⟩)
    · obtain ⟨used, hTokens, h⟩ :=
        (takes_one (p := fun s => s.kind.isWord = true ∧ s.value = v)).mpr h
      exact ⟨used, hTokens, Or.inl h⟩
    · exact ⟨used, hTokens, Or.inr h⟩

/-- Tokens are never made, only taken. -/
theorem Takes.length_le {p : Spelling} (h : p.Takes tokens rest) : rest.length ≤ tokens.length := by
  obtain ⟨used, rfl, _⟩ := h
  simp

end takes

end Spelling

mutual

def Body.spelling : Body → Spelling
  | .nil => .empty
  | .option name value rest => .next (.setting name value) rest.spelling
  | .case subject alternatives rest =>
    .next (.case subject alternatives.spelling) rest.spelling

def Alternatives.spelling : Alternatives → Spelling
  | .last label labels body => .alternative label labels body.spelling
  | .cons label labels body rest =>
    .next (.alternative label labels body.spelling) rest.spelling

end

def Statement.spelling : Statement → Spelling
  | .tool name => .named .tool name
  | .source name => .named .input name
  | .axis kind name label labels default => .declaration kind name label labels default
  | .option name value => .setting name value
  | .case subject alternatives => .case subject alternatives.spelling
  | .select choice label => .select choice label
  | .every choice => .every choice

def scriptSpelling : List Statement → Spelling
  | [] => .empty
  | statement :: script => .next statement.spelling (scriptSpelling script)

end Runsheet

import Runsheet.Proofs.Script.Acting
import Runsheet.Proofs.Script.Grammar
import Runsheet.Proofs.Token.Layout

/-! The reader is exact: a source is read to its end if and only if it lays out a spelling of a
script, and then with the events of that script. -/
namespace Runsheet

namespace Spelling

/-- Every symbol of every spelling is one that can be laid out. -/
def Legal (p : Spelling) : Prop := ∀ symbols, p symbols → ∀ s ∈ symbols, s.kind ≠ .illegal

section legal

variable {p q : Spelling}

theorem legal_empty : empty.Legal := by
  rintro symbols rfl s hs
  cases hs

theorem legal_one {p : Symbol → Prop} (h : ∀ s, p s → s.kind ≠ .illegal) : (one p).Legal := by
  rintro symbols ⟨t, rfl, ht⟩ s hs
  obtain rfl := List.mem_singleton.mp hs
  exact h s ht

theorem legal_of_kind {p : Symbol → Prop} {kind : TokenKind} (hKind : kind ≠ .illegal)
    (h : ∀ s, p s → s.kind = kind) : (one p).Legal :=
  legal_one fun s hs => h s hs ▸ hKind

theorem legal_sign {kind : TokenKind} (h : kind ≠ .illegal) : (sign kind).Legal :=
  legal_of_kind h fun _ hs => hs

theorem legal_colon : (sign .colon).Legal := legal_sign nofun

theorem legal_semicolon : (sign .semicolon).Legal := legal_sign nofun

theorem legal_keyword (k : Keyword) : (keyword k).Legal := legal_sign nofun

theorem legal_name (value : Text) : (name value).Legal :=
  legal_of_kind (by decide) fun _ hs => hs.1

/-- Symbols in a row can be laid out when each of them can, which only asks that none is an illegal
token. -/
theorem Legal.next (hp : p.Legal) (hq : q.Legal) : (next p q).Legal := by
  rintro symbols ⟨own, more, rfl, hOwn, hMore⟩ s hs
  rcases List.mem_append.mp hs with hs | hs
  · exact hp own hOwn s hs
  · exact hq more hMore s hs

theorem legal_strings (value : Text) : (strings value).Legal := by
  rintro symbols ⟨-, hKinds, -⟩ s hs
  rw [hKinds s hs]
  decide

theorem legal_word (value : Text) : (word value).Legal := by
  rintro symbols (h | h)
  · exact legal_name value symbols h
  · exact legal_strings value symbols h

theorem kind_ne_illegal_of_isWord {s : Symbol} (h : s.kind.isWord = true) : s.kind ≠ .illegal := by
  intro hKind
  rw [hKind] at h
  cases h

/-- A word of any sort can be laid out, and so can strings. -/
theorem legal_label (value : Text) : (label value).Legal := by
  rintro symbols (h | h)
  · exact legal_one (fun s hs => kind_ne_illegal_of_isWord hs.1) symbols h
  · exact legal_strings value symbols h

theorem legal_labels (first : Text) (more : List Text) : (labels first more).Legal := by
  induction more generalizing first with
  | nil => exact legal_label first
  | cons second more ih =>
      have hBar : (sign .bar).Legal := legal_sign nofun
      exact (legal_label first).next (hBar.next (ih second))

theorem legal_pair (value : Text) : (pair value).Legal := by
  rintro symbols ⟨x, sign, y, rfl, hx, hy, -, -, hSign⟩ s hs
  have hKind : sign.kind ≠ .illegal := by
    rcases hSign with ⟨hKind, -⟩ | ⟨hKind, -⟩
    · rw [hKind]
      decide
    · rw [hKind]
      decide
  simp only [List.mem_cons, List.not_mem_nil, or_false] at hs
  rcases hs with rfl | rfl | rfl
  · exact kind_ne_illegal_of_isWord hx
  · exact hKind
  · exact kind_ne_illegal_of_isWord hy

/-- A value is laid out as a word, as strings or as two words that touch; none of these is an
illegal token. -/
theorem legal_value (v : Option Text) : (value v).Legal := by
  cases v with
  | none => exact legal_empty
  | some v =>
      rintro symbols (h | h)
      · exact legal_label v symbols h
      · exact legal_pair v symbols h

theorem legal_setting (name : Text) (v : Option Text) : (setting name v).Legal :=
  (legal_of_kind (by decide) fun _ hs => hs.1).next (legal_value v)

theorem legal_named (k : Keyword) (value : Text) : (named k value).Legal :=
  (legal_keyword k).next <| legal_colon.next <| (legal_word value).next legal_semicolon

theorem legal_default (l : Option Text) : (default l).Legal := by
  cases l with
  | none => exact legal_empty
  | some l =>
      have hComma : (sign .comma).Legal := legal_sign nofun
      exact hComma.next <| (legal_keyword _).next <| legal_colon.next (legal_label l)

theorem legal_declaration (kind : AxisKind) (axis first : Text) (more : List Text)
    (l : Option Text) : (declaration kind axis first more l).Legal :=
  (legal_keyword _).next <| (legal_name axis).next <| legal_colon.next <|
    (legal_labels first more).next <| (legal_default l).next legal_semicolon

theorem legal_select (choice l : Text) : (select choice l).Legal :=
  (legal_keyword _).next <| (legal_name choice).next <| legal_colon.next <|
    (legal_label l).next legal_semicolon

theorem legal_every (choice : Text) : (every choice).Legal :=
  (legal_keyword _).next <| (legal_name choice).next legal_semicolon

theorem Legal.case (subject : Text) (h : p.Legal) : (case subject p).Legal :=
  (legal_keyword _).next <| (legal_name subject).next <| legal_colon.next <|
    h.next legal_semicolon

theorem Legal.alternative (first : Text) (more : List Text) (h : p.Legal) :
    (alternative first more p).Legal :=
  (legal_labels first more).next <| legal_colon.next <| h.next legal_semicolon

end legal

end Spelling

mutual

/-- Everything that spells an alternative can be laid out. By induction on its elements. -/
theorem Body.legal_spelling (b : Body) : b.spelling.Legal := by
  match b with
  | .nil => exact Spelling.legal_empty
  | .option name value rest => exact (Spelling.legal_setting name value).next rest.legal_spelling
  | .case subject alternatives rest =>
      exact (alternatives.legal_spelling.case subject).next rest.legal_spelling

theorem Alternatives.legal_spelling (a : Alternatives) : a.spelling.Legal := by
  match a with
  | .last label labels body => exact body.legal_spelling.alternative label labels
  | .cons label labels body rest =>
      exact (body.legal_spelling.alternative label labels).next rest.legal_spelling

end

theorem Statement.legal_spelling (s : Statement) : s.spelling.Legal := by
  cases s with
  | tool name => exact Spelling.legal_named _ name
  | source name => exact Spelling.legal_named _ name
  | axis kind name label labels default =>
      exact Spelling.legal_declaration kind name label labels default
  | option name value => exact Spelling.legal_setting name value
  | case subject alternatives => exact alternatives.legal_spelling.case subject
  | select choice label => exact Spelling.legal_select choice label
  | every choice => exact Spelling.legal_every choice

/-- A spelling of a script never has a symbol that no source could contain, so that spelling and
layout fit together. -/
theorem legal_scriptSpelling (script : List Statement) : (scriptSpelling script).Legal := by
  induction script with
  | nil => exact Spelling.legal_empty
  | cons statement script ih => exact statement.legal_spelling.next ih

/-- The tokens of a source spell a script exactly when the source lays out a spelling of it. -/
theorem takes_tokens_iff (source : Text) (script : List Statement) :
    (scriptSpelling script).Takes (Tokens.ofSource source).body [] ↔
      ∃ symbols, scriptSpelling script symbols ∧ Layout symbols source := by
  constructor
  · rintro ⟨used, hUsed, hSpelling⟩
    rw [List.append_nil] at hUsed
    subst hUsed
    refine ⟨_, hSpelling, layout_tokens (.ofSource source) fun t ht => ?_⟩
    exact legal_scriptSpelling script _ hSpelling t.symbol (List.mem_map_of_mem ht)
  · rintro ⟨symbols, hSpelling, hLayout⟩
    refine ⟨_, (List.append_nil _).symm, ?_⟩
    have hScanned : (Tokens.ofSource source).body.map Token.symbol = symbols :=
      Layout.scanned (c := .ofSource source) hLayout
    rwa [hScanned]

section drive

variable {σ ε : Type} {act : σ → Emission → σ × Option ε}

/-- Whoever never refuses is handed everything. -/
theorem handOn_of_never (hAct : ∀ s e, (act s e).2 = none) (s : σ) (emitted : List Emission) :
    handOn act s emitted = (emitted.foldl (fun s e => (act s e).1) s, none) := by
  induction emitted generalizing s with
  | nil => rfl
  | cons e emitted ih =>
      have hStep : act s e = ((act s e).1, none) := Prod.ext rfl (hAct s e)
      rw [handOn, hStep]
      exact ih _

/-- A listener who refuses nothing is told everything, in order, and reading stops only at an error
of the script. -/
theorem drive_of_never (hAct : ∀ s e, (act s e).2 = none) (s : σ) (tokens : Tokens) :
    tokens.drive act s =
      ((Parse.ofTokens tokens).emitted.foldl (fun s e => (act s e).1) s,
        (Parse.ofTokens tokens).failure.map .unreadable) := by
  rw [Parse.drive_eq, handOn_of_never hAct]

end drive

namespace Parse

/-- The events of a script are what is heard of its reports, trace records being left out. -/
theorem events_eq_heard (p : Parse) : p.events.map Prod.fst = heard p.emitted := by
  rw [events, heard, List.map_filterMap]
  refine congrArg (List.filterMap · p.emitted) (funext fun e => ?_)
  cases e <;> rfl

/-- What is read to its end holds no fault. -/
theorem legal_of_failure {eof : Token} {tokens : List Token} (hEof : eof.kind = .eof)
    (h : (fromPlace eof .statements tokens).failure = none) : ∀ t ∈ tokens, t.kind ≠ .illegal := by
  obtain ⟨script, ⟨used, hUsed, hSpelling⟩, -⟩ := (accepts_iff hEof).mp ⟨h, rfl⟩
  intro t ht
  rw [hUsed, List.append_nil] at ht
  exact legal_scriptSpelling script _ hSpelling t.symbol (List.mem_map_of_mem ht)

/-- What is read to its end is what lays out a spelling of a script. -/
theorem ofSource_iff (source : Text) (events : List Event) :
    ((ofSource source).failure = none ∧ heard (ofSource source).emitted = events) ↔
      ∃ script symbols, scriptSpelling script symbols ∧ Layout symbols source ∧
        events = scriptEvents script := by
  have hEof := Tokens.kind_eof source
  have hHeard : heard (ofSource source).emitted = .beginScript ::
      heard (fromPlace (Tokens.ofSource source).eof .statements (Tokens.ofSource source).body).emitted := by
    rw [ofSource, ofTokens_eq]
    rfl
  have hSame : (ofSource source).failure =
      (fromPlace (Tokens.ofSource source).eof .statements (Tokens.ofSource source).body).failure :=
    failure_ofTokens _
  constructor
  · rintro ⟨hFailure, rfl⟩
    obtain ⟨script, hTakes, hEvents⟩ := (accepts_iff hEof).mp ⟨hSame ▸ hFailure, rfl⟩
    obtain ⟨symbols, hSpelling, hLayout⟩ := (takes_tokens_iff source script).mp hTakes
    exact ⟨script, symbols, hSpelling, hLayout, hHeard.trans (congrArg _ hEvents)⟩
  · rintro ⟨script, symbols, hSpelling, hLayout, rfl⟩
    have hTakes := (takes_tokens_iff source script).mpr ⟨symbols, hSpelling, hLayout⟩
    obtain ⟨hFailure, hEvents⟩ := (accepts_iff hEof).mpr ⟨script, hTakes, rfl⟩
    exact ⟨hSame.trans hFailure, hHeard.trans (congrArg _ hEvents)⟩

/-- Reading that comes to its end without a refusal has handed on the events of a script. -/
theorem exists_script_of_drive {σ ε : Type} {act : σ → Emission → σ × Option ε} {s s' : σ}
    {source : Text} (h : (Tokens.ofSource source).drive act s = (s', none)) :
    ∃ script symbols, scriptSpelling script symbols ∧ Layout symbols source ∧
      heard (ofSource source).emitted = scriptEvents script ∧
      handOn act s (ofSource source).emitted = (s', none) := by
  rw [drive_eq] at h
  split at h
  · cases h
  · rename_i hRun
    obtain ⟨rfl, hFailure⟩ := Prod.mk.inj h
    have hRead := Option.map_eq_none_iff.mp hFailure
    obtain ⟨script, symbols, hSpelling, hLayout, hEvents⟩ := (ofSource_iff source _).mp ⟨hRead, rfl⟩
    exact ⟨script, symbols, hSpelling, hLayout, hEvents, hRun⟩

/-- Reading a source for someone who never refuses comes to its end exactly when the source lays
out a spelling of a script, and the events handed on are then those of the script. -/
theorem ofSource_exact {σ ε : Type} {act : σ → Emission → σ × Option ε}
    (hAct : ∀ s e, (act s e).2 = none) (s : σ) (source : Text) (events : List Event) :
    ((Tokens.ofSource source).drive act s =
        ((ofSource source).emitted.foldl (fun s e => (act s e).1) s, none) ∧
      (ofSource source).events.map Prod.fst = events) ↔
      ∃ script symbols, scriptSpelling script symbols ∧ Layout symbols source ∧
        events = scriptEvents script := by
  have hDrive : (Tokens.ofSource source).drive act s =
      ((ofSource source).emitted.foldl (fun s e => (act s e).1) s, none) ↔
      (ofSource source).failure = none := by
    rw [drive_of_never hAct, Prod.mk.injEq, Option.map_eq_none_iff]
    exact and_iff_right rfl
  rw [hDrive, events_eq_heard]
  exact ofSource_iff source events

/-- A source with an escaped quote, words that touch a sign, and a comment that no newline ends. -/
def touchingSource : Text := "tool: 'a\\'b';-o x:y # z"

/-- The symbols that the source lays out. -/
def touchingSymbols : List Symbol :=
  [⟨.keyword .tool, "tool", false⟩, ⟨.colon, [], false⟩, ⟨.string, "a'b", true⟩,
    ⟨.semicolon, [], false⟩, ⟨.option, "-o", false⟩, ⟨.name, "x", true⟩, ⟨.colon, [], false⟩,
    ⟨.name, "y", false⟩]

/-- Where the symbols touch, a compound value may be spelt in two words with a colon between them.
-/
theorem spelling_touchingSymbols :
    scriptSpelling [.tool "a'b", .option "-o" (some "x:y")] touchingSymbols := by
  have hTool : Spelling.named .tool "a'b" (touchingSymbols.take 4) :=
    ⟨[_], _, rfl, ⟨_, rfl, rfl⟩, [_], _, rfl, ⟨_, rfl, rfl⟩, [_], _, rfl,
      Or.inr ⟨by decide, by simp, rfl⟩, ⟨_, rfl, rfl⟩⟩
  have hPair : Spelling.pair "x:y" (touchingSymbols.drop 5) :=
    ⟨_, _, _, rfl, rfl, rfl, rfl, rfl, Or.inr ⟨rfl, rfl, by simp⟩⟩
  exact ⟨touchingSymbols.take 4, touchingSymbols.drop 4, rfl, hTool, touchingSymbols.drop 4, [], rfl,
    ⟨[_], _, rfl, ⟨_, rfl, rfl, rfl⟩, Or.inr hPair⟩, rfl⟩

open Scan in
/-- The option touches the semicolon before it, and the source ends in a comment without a newline.
-/
theorem layout_touchingSymbols : Layout touchingSymbols touchingSource := by
  have hEnd : Layout [] " # z" := .done (.blank rfl (@Gap.lastComment [32, 122] (by simp)))
  have hy : Word .name "y" := @Word.name 121 [] rfl (by simp) fun k => by cases k <;> decide
  have hSecond := @Layout.next [] "y" " # z" ⟨.name, "y", false⟩ _ .nil rfl (.word hy)
    (fun _ => apart_cons rfl) hEnd
  have hColon := @Layout.next [] ":" "y # z" ⟨.colon, [], false⟩ _ .nil rfl (.sign rfl)
    (fun h => absurd h (not_word_of_sign rfl)) hSecond
  have hx : Word .name "x" := @Word.name 120 [] rfl (by simp) fun k => by cases k <;> decide
  have hFirst := @Layout.next " " "x" ":y # z" ⟨.name, "x", true⟩ _ (.blank rfl .nil) rfl (.word hx)
    (fun _ => apart_cons rfl) hColon
  have ho : Word .option "-o" :=
    @Word.option [] [] 111 (by simp) (List.all_eq_true.mp rfl) (by decide) fun _ => rfl
  have hOption := @Layout.next [] "-o" " x:y # z" ⟨.option, "-o", false⟩ _ .nil rfl (.word ho)
    (fun _ => apart_cons rfl) hFirst
  have hStop := @Layout.next [] ";" "-o x:y # z" ⟨.semicolon, [], false⟩ _ .nil rfl (.sign rfl)
    (fun h => absurd h (not_word_of_sign rfl)) hOption
  have hQuoted : Quoted 39 "a\\'b" "a'b" :=
    .plain (by decide) (by decide) (by decide) <| .escape 39 <|
      .plain (by decide) (by decide) (by decide) .nil
  have hString := @Layout.next " " "'a\\'b'" ";-o x:y # z" ⟨.string, "a'b", true⟩ _
    (.blank rfl .nil) rfl (.string (Or.inr rfl) hQuoted) (fun h => absurd rfl h.kind_ne.2.1) hStop
  have hStart := @Layout.next [] ":" " 'a\\'b';-o x:y # z" ⟨.colon, [], false⟩ _ .nil rfl (.sign rfl)
    (fun h => absurd h (not_word_of_sign rfl)) hString
  exact @Layout.next [] "tool" ": 'a\\'b';-o x:y # z" _ _ .nil rfl (.word (.keyword .tool))
    (fun _ => apart_cons rfl) hStart

/-- A quote is escaped in a string, and a value is put together of three touching tokens. -/
theorem ofSource_exact_touching :
    (∀ s e, (Recording.receive none s e).2 = none) ∧
      ((Tokens.ofSource touchingSource).drive (Recording.receive none) {}).2 = none ∧
      (ofSource touchingSource).events.map Prod.fst =
        [.beginScript, .setTool "a'b", .addSwitch ⟨"-o", "x:y", true⟩, .endScript] := by
  have hAct : ∀ s e, (Recording.receive none s e).2 = none := by
    intro s e
    cases e <;> rfl
  have h := (ofSource_exact hAct {} touchingSource _).mpr
    ⟨_, _, spelling_touchingSymbols, layout_touchingSymbols, rfl⟩
  exact ⟨hAct, congrArg Prod.snd h.1, h.2⟩

end Parse

end Runsheet

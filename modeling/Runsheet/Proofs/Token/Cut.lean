import Runsheet.Proofs.Script.Completion
import Runsheet.Proofs.Token.Place

/-! Cutting a source between two tokens. What stands before the cut is scanned as it was, whatever
comes behind it, unless that goes on with a word; and fillers can be written there, the first of them
where the next token was. -/
namespace Runsheet

namespace Position

theorem length_runes_replicate (n : Nat) : (Text.runes (List.replicate n 32)).length = n := by
  induction n with
  | zero => rfl
  | succ n ih => rw [List.replicate_succ, Text.runes_cons_ascii (by decide), List.length_cons, ih]

/-- Blanks lead to the line and the column to which any text leads. -/
theorem exists_blanks (p : Position) (t : Text) :
    ∃ blanks : Text, (∀ b ∈ blanks, Scan.isBlankByte b = true) ∧
      (p.after blanks).line = (p.after t).line ∧ (p.after blanks).column = (p.after t).column := by
  have hBlank : ∀ {n : Nat} {b : UInt8}, b ∈ List.replicate n (32 : UInt8) → b = 32 :=
    fun h => (List.mem_replicate.mp h).2
  have hLine : ∀ n : Nat, (10 : UInt8) ∉ List.replicate n 32 :=
    fun n h => absurd (hBlank h) (by decide)
  rcases Text.exists_line t with h | ⟨s, u, rfl, h⟩
  · refine ⟨List.replicate (Text.runes t).length 32, fun b hb => ?_, ?_, ?_⟩
    · rw [hBlank hb]
      rfl
    · rw [line_after, line_after, List.count_eq_zero.mpr h, List.count_eq_zero.mpr (hLine _)]
    · rw [column_after_of_line h, column_after_of_line (hLine _), length_runes_replicate]
  · refine ⟨List.replicate (s.count 10) 10 ++ 10 :: List.replicate (Text.runes u).length 32,
      fun b hb => ?_, ?_, ?_⟩
    · rcases List.mem_append.mp hb with hb | hb
      · rw [(List.mem_replicate.mp hb).2]
        rfl
      · rcases List.mem_cons.mp hb with rfl | hb
        · rfl
        · rw [hBlank hb]
          rfl
    · rw [after_newline, after_newline, line_after, line_after, List.count_replicate_self,
        List.count_eq_zero.mpr h, List.count_eq_zero.mpr (hLine _)]
    · rw [after_newline, after_newline, column_after_of_line h, column_after_of_line (hLine _),
        length_runes_replicate]

end Position

namespace Filler

open Scan

def bytes : Filler → Text
  | colon => ":"
  | semicolon => ";"
  | name => "x"
  | default => "default"

theorem written (f : Filler) : ∃ value, Written f.kind value f.bytes := by
  cases f with
  | colon => exact ⟨[], .sign rfl⟩
  | semicolon => exact ⟨[], .sign rfl⟩
  | name => exact ⟨"x", .word (@Word.name 120 [] rfl (by simp) fun k => by cases k <;> decide)⟩
  | default => exact ⟨"default", .word (.keyword .default)⟩

end Filler

theorem Scan.gap_of_blanks {atEnd : Bool} {blanks : Text}
    (h : ∀ b ∈ blanks, Scan.isBlankByte b = true) : Scan.Gap atEnd blanks := by
  induction blanks with
  | nil => exact .nil
  | cons b blanks ih =>
      obtain ⟨hb, hMore⟩ := List.forall_mem_cons.mp h
      exact .blank hb (ih hMore)

namespace Cursor

open Scan

/-- The first token, or the end token when there is no other, comes from the next call. -/
theorem headD_tokens (c : Cursor) : c.tokens.body.headD c.tokens.eof = c.next.1 := by
  cases hNext : c.next with
  | mk t c' =>
      by_cases ht : t.kind = .eof
      · rw [tokens_of_end hNext ht]
        rfl
      · rw [tokens_of_next hNext ht]
        rfl

theorem exists_position_next (c : Cursor) : ∃ t, c.next.1.position = c.position.after t := by
  have hStep := c.step_next
  generalize c.next.1 = t at hStep
  generalize c.next.2 = c' at hStep
  cases hStep with
  | last => exact ⟨c.rest, rfl⟩
  | @token kind fault gap bytes after => exact ⟨gap, rfl⟩

/-- Fillers after some blanks are scanned, and the first of them stands right after the blanks. -/
theorem fill_tokens (fillers : List Filler) {c : Cursor} {blanks : Text}
    (hBlanks : ∀ b ∈ blanks, isBlankByte b = true)
    (hRest : c.rest = blanks ++ fillers.flatMap (·.bytes ++ [32])) :
    Filler.Fill fillers c.tokens.body ∧ c.next.1.position = c.position.after blanks := by
  induction fillers generalizing c blanks with
  | nil =>
      rw [List.flatMap_nil, List.append_nil] at hRest
      have hGap : Gap true c.rest := hRest ▸ gap_of_blanks hBlanks
      rw [tokens_of_end (next_eq_of_end hGap) rfl, next_eq_of_end hGap, hRest]
      exact ⟨rfl, rfl⟩
  | cons f fillers ih =>
      obtain ⟨value, hWritten⟩ := f.written
      have hParts : c.rest = blanks ++ (f.bytes ++ ([32] ++ fillers.flatMap (·.bytes ++ [32]))) := by
        rw [hRest, List.flatMap_cons, List.append_assoc]
      have hNext := next_eq_of_written hParts (gap_of_blanks hBlanks) hWritten
        fun _ => apart_cons rfl
      obtain ⟨hFill, -⟩ := @ih c.next.2 [32] (by simp [isBlankByte]) (by rw [hNext])
      rw [tokens_of_next hNext hWritten.kind_ne_eof, Filler.fill_cons]
      rw [hNext] at hFill ⊢
      exact ⟨⟨_, _, rfl, rfl, hFill⟩, rfl⟩

/-- The tokens before a cut are found again, whatever comes behind them that goes on with none. -/
theorem exists_cut {read blamed : List Token} (c : Cursor) (hTokens : c.tokens.body = read ++ blamed)
    (hLegal : ∀ t ∈ read, t.kind ≠ .illegal) :
    ∃ d : Cursor, d.tokens = ⟨blamed, c.tokens.eof⟩ ∧
      ∀ rest, (∀ t ∈ read.getLast?, isPunctuation t.kind = false → Apart rest) →
        ∃ text, (Cursor.mk text c.position).tokens =
            ⟨read ++ (Cursor.mk rest d.position).tokens.body, (Cursor.mk rest d.position).tokens.eof⟩ ∧
          (Apart c.rest → (read = [] → Apart rest) → Apart text) := by
  induction read generalizing c with
  | nil =>
      refine ⟨c, ?_, fun rest _ => ⟨rest, rfl, fun _ hRest => hRest rfl⟩⟩
      rw [List.nil_append] at hTokens
      rw [← hTokens]
  | cons t read ih =>
      obtain ⟨ht, hMore⟩ := List.forall_mem_cons.mp hLegal
      have hStep := c.step_next
      cases hNext : c.next with
      | mk u c' =>
          rw [hNext] at hStep
          cases hStep with
          | last =>
              rw [tokens_of_end hNext rfl] at hTokens
              cases hTokens
          | @token kind fault gap bytes after hRest hGap hLexed =>
              rw [tokens_of_next hNext hLexed.kind_ne_eof] at hTokens ⊢
              obtain ⟨rfl, hTail⟩ := List.cons.inj hTokens
              obtain ⟨rfl, value, hWritten, hApart⟩ := hLexed.written_of_legal ht
              obtain ⟨d, hBlamed, hCut⟩ := ih _ hTail hMore
              refine ⟨d, hBlamed, fun rest hLast => ?_⟩
              have hBehind : ∀ u ∈ read.getLast?, isPunctuation u.kind = false → Apart rest := by
                intro u hu
                cases read with
                | nil => cases hu
                | cons v read =>
                    rw [List.getLast?_cons_cons] at hLast
                    exact hLast u hu
              obtain ⟨text, hText, hJoin⟩ := hCut rest hBehind
              have hEnd : Word kind bytes → Apart text := by
                refine fun hWord => hJoin (hApart hWord) ?_
                rintro rfl
                exact hLast _ rfl hWord.kind_ne.2.2
              have hFirst := @next_eq_of_written ⟨gap ++ (bytes ++ text), c.position⟩ _ _ _ _ _ rfl
                hGap hWritten hEnd
              refine ⟨gap ++ (bytes ++ text), ?_, fun hStart _ => ?_⟩
              · rw [tokens_of_next hFirst hWritten.kind_ne_eof, hText]
                rfl
              · obtain ⟨b, bytes, rfl, -⟩ := hWritten.head_solid
                rw [hRest] at hStart
                cases gap with
                | nil => exact hStart
                | cons g gap => exact hStart

end Cursor

/-- Fillers can be put in place of the tokens of a source from one on. After a sign, or with no token
before them, the first of them stands where that one did. -/
theorem Tokens.exists_completed {source : Text} {read blamed : List Token}
    (hTokens : (ofSource source).body = read ++ blamed) (hLegal : ∀ t ∈ read, t.kind ≠ .illegal)
    (fillers : List Filler) :
    ∃ completed more, (ofSource completed).body = read ++ more ∧ Filler.Fill fillers more ∧
      ((∀ t ∈ read.getLast?, Scan.isPunctuation t.kind = true) →
        (more.headD (ofSource completed).eof).pos = (blamed.headD (ofSource source).eof).pos) := by
  obtain ⟨d, hBlamed, hCut⟩ := (Cursor.ofSource source).exists_cut hTokens hLegal
  -- The fillers are written after some blanks, which divide them from a word.
  have hPut : ∀ {blanks : Text}, (∀ b ∈ blanks, Scan.isBlankByte b = true) →
      (∀ t ∈ read.getLast?, Scan.isPunctuation t.kind = false →
        Scan.Apart (blanks ++ fillers.flatMap (·.bytes ++ [32]))) →
      ∃ completed more, (ofSource completed).body = read ++ more ∧ Filler.Fill fillers more ∧
        (more.headD (ofSource completed).eof).position = d.position.after blanks := by
    intro blanks hBlanks hApart
    obtain ⟨completed, hCompleted, -⟩ := hCut _ hApart
    obtain ⟨hFill, hPlace⟩ := @Cursor.fill_tokens fillers ⟨_, d.position⟩ _ hBlanks rfl
    have hTokens : ofSource completed = _ := hCompleted
    refine ⟨completed, _, congrArg Tokens.body hTokens, hFill, ?_⟩
    rw [hTokens, Cursor.headD_tokens, hPlace]
  by_cases hSign : ∀ t ∈ read.getLast?, Scan.isPunctuation t.kind = true
  · obtain ⟨t, hPosition⟩ := d.exists_position_next
    obtain ⟨blanks, hBlanks, hLine, hColumn⟩ := Position.exists_blanks d.position t
    obtain ⟨completed, more, hBody, hFill, hPlace⟩ := hPut hBlanks
      fun t ht hOther => absurd ((hSign t ht).symm.trans hOther) (by decide)
    have hHead : blamed.headD (ofSource source).eof = d.next.1 := by
      rw [← d.headD_tokens, hBlamed]
      rfl
    refine ⟨completed, more, hBody, hFill, fun _ => ?_⟩
    rw [Token.pos, Token.pos, hPlace, hLine, hColumn, hHead, hPosition]
  · obtain ⟨completed, more, hBody, hFill, -⟩ := @hPut [10] (by simp [Scan.isBlankByte])
      fun _ _ _ => Scan.apart_cons rfl
    exact ⟨completed, more, hBody, hFill, fun h => absurd h hSign⟩

end Runsheet

import Runsheet.Proofs.Script.Constructs
import Runsheet.Proofs.Token.Join

/-! Reading the same tokens at another place. When tokens are moved down and further ones put behind
them, a step that read some of them reads the same ones there, and its events are moved down too,
unless what comes behind could be taken for a part of the last construct. -/
namespace Runsheet

def located (emitted : List Emission) : List (Event × Pos) := emitted.filterMap fun
  | .event e pos => some (e, pos)
  | .note _ => none

@[simp] theorem located_append (a b : List Emission) : located (a ++ b) = located a ++ located b :=
  List.filterMap_append

@[simp] theorem located_event (e : Event) (pos : Pos) (more : List Emission) :
    located (.event e pos :: more) = (e, pos) :: located more := rfl

def Pos.down (lines : Nat) (p : Pos) : Pos := ⟨p.line + lines, p.column⟩

/-- Another place for tokens: so many lines and bytes further on, and before other tokens. -/
structure Relocation where
  lines : Nat
  bytes : Nat
  eof : Token
  tail : List Token

namespace Relocation

variable (m : Relocation)

def token (t : Token) : Token := t.shift m.lines m.bytes

/-- The tokens at their other place, with those behind them. -/
def tokens (ts : List Token) : List Token := ts.map m.token ++ m.tail

def events (es : List (Event × Pos)) : List (Event × Pos) :=
  es.map fun x => (x.1, x.2.down m.lines)

/-- What comes behind the tokens goes on with none of their constructs. -/
structure Opens : Prop where
  ends : m.eof.kind = .eof
  clear : Reader.Clear m.eof m.tail
  not_semicolon : (m.tail.headD m.eof).kind ≠ .semicolon
  spaced : (m.tail.headD m.eof).kind.isWord = true → (m.tail.headD m.eof).spaced = true

variable {m}

/-- What goes on with a construct does not come behind. -/
theorem Opens.kind_ne (h : m.Opens) {kind : TokenKind}
    (hKind : kind ∈ [.string, .bar, .comma, .colon, .equals, .name]) :
    (m.tail.headD m.eof).kind ≠ kind := by
  simp only [List.mem_cons, List.not_mem_nil, or_false] at hKind
  rcases hKind with rfl | rfl | rfl | rfl | rfl | rfl <;>
    exact h.clear.kind_ne _ (by decide) (by decide) (by decide) rfl

/-- A token keeps its kind wherever it is moved to, and with it all that reading depends on. -/
@[simp] theorem kind_token (t : Token) : (m.token t).kind = t.kind := rfl

/-- The place of a token moves by the lines that were put in front. -/
@[simp] theorem pos_token (t : Token) : (m.token t).pos = t.pos.down m.lines := by
  simp [token, Token.shift, Token.pos, Position.shift, Pos.down]

@[simp] theorem tokens_nil : m.tokens [] = m.tail := rfl

@[simp] theorem tokens_cons (t : Token) (ts : List Token) :
    m.tokens (t :: ts) = m.token t :: m.tokens ts := rfl

@[simp] theorem events_append (es fs : List (Event × Pos)) :
    m.events (es ++ fs) = m.events es ++ m.events fs :=
  List.map_append

end Relocation

namespace Reader

variable {α β : Type} {m : Relocation} {eof t : Token} {tokens more : List Token}

/-- The step succeeds on no events, value and rest. -/
def Fails (x : Recorder α) (eof : Token) (tokens : List Token) : Prop :=
  ∀ events a rest, ¬ x.Reads eof tokens events a rest

/-- A step that fails at once fails however it goes on. -/
theorem Fails.bind {x : Recorder α} {f : α → Recorder β} (h : x.Fails eof tokens) :
    (x >>= f).Fails eof tokens := by
  intro events b rest hRead
  obtain ⟨_, _, _, _, hFirst, _⟩ := reads_bind.mp hRead
  exact h _ _ _ hFirst

/-- What the first step makes of the tokens, the second makes of them at their other place. -/
def Carries (m : Relocation) (eof : Token) (tokens : List Token) (x y : Recorder α) : Prop :=
  ∀ emitted a rest, x eof tokens = ⟨emitted, .ok (a, rest)⟩ →
    ∃ emitted', y m.eof (m.tokens tokens) = ⟨emitted', .ok (a, m.tokens rest)⟩ ∧
      located emitted' = m.events (located emitted)

section basic

/-- Whether a step carries over depends on what it does with these tokens only. -/
theorem Carries.congr {x x' y y' : Recorder α} (hx : x eof tokens = x' eof tokens)
    (hy : y m.eof (m.tokens tokens) = y' m.eof (m.tokens tokens))
    (h : Carries m eof tokens x' y') : Carries m eof tokens x y := by
  intro emitted a rest hRead
  rw [hy]
  exact h _ _ _ (hx ▸ hRead)

/-- A step that fails has nothing to carry over. -/
theorem Fails.carries {x y : Recorder α} (h : x.Fails eof tokens) : Carries m eof tokens x y :=
  fun emitted a rest hRead => absurd ⟨emitted, hRead, rfl⟩ (h (heard emitted) a rest)

theorem carries_pure (a : α) : Carries m eof tokens (pure a) (pure a) := by
  intro emitted b rest h
  cases h
  exact ⟨[], rfl, rfl⟩

theorem carries_note (record record' : LogRecord) :
    Carries m eof tokens (note record) (note record') := by
  intro emitted a rest h
  cases h
  exact ⟨_, rfl, rfl⟩

/-- A report carries over if its place moves with the tokens. -/
theorem carries_emit (e : Event) {pos pos' : Pos} (hPos : pos' = pos.down m.lines) :
    Carries m eof tokens (emit e pos) (emit e pos') := by
  intro emitted a rest h
  cases h
  exact ⟨_, rfl, by rw [hPos]; rfl⟩

/-- One step after another is carried over if the second is from where the first led. -/
theorem Carries.bind_of {x x' : Recorder α} {f f' : α → Recorder β} (hx : Carries m eof tokens x x')
    (hf : ∀ first a rest, x eof tokens = ⟨first, .ok (a, rest)⟩ →
      Carries m eof rest (f a) (f' a)) :
    Carries m eof tokens (x >>= f) (x' >>= f') := by
  intro emitted b rest h
  rw [bind_eq] at h
  cases hFirst : x eof tokens with
  | mk first outcome =>
      cases outcome with
      | error e =>
          rw [hFirst] at h
          cases h
      | ok result =>
          obtain ⟨a, middle⟩ := result
          rw [hFirst] at h
          cases hSecond : f a eof middle with
          | mk second outcome =>
              simp only [hSecond, Recorded.mk.injEq] at h
              obtain ⟨rfl, rfl⟩ := h
              obtain ⟨first', hFirst', hLocated⟩ := hx _ _ _ hFirst
              obtain ⟨second', hSecond', hLocated'⟩ := hf _ _ _ hFirst _ _ _ hSecond
              refine ⟨first' ++ second', ?_, by simp [hLocated, hLocated']⟩
              rw [bind_eq, hFirst']
              simp only [hSecond']

/-- Two steps carry over when the first does and the second does after whatever the first leaves. -/
theorem Carries.bind {x x' : Recorder α} {f f' : α → Recorder β} (hx : Carries m eof tokens x x')
    (hf : ∀ a rest, Carries m eof rest (f a) (f' a)) :
    Carries m eof tokens (x >>= f) (x' >>= f') :=
  hx.bind_of fun _ a rest _ => hf a rest

/-- A choice that is made alike at both places. -/
theorem Carries.ite {c c' : Prop} [Decidable c] [Decidable c'] {x x' y y' : Recorder α} (h : c' ↔ c)
    (hx : c → Carries m eof tokens x x') (hy : ¬c → Carries m eof tokens y y') :
    Carries m eof tokens (if c then x else y) (if c' then x' else y') := by
  by_cases hc : c
  · rw [if_pos hc, if_pos (h.mpr hc)]
    exact hx hc
  · rw [if_neg hc, if_neg (mt h.mp hc)]
    exact hy hc

theorem Carries.note_bind {record record' : LogRecord} {f f' : Unit → Recorder β}
    (h : Carries m eof tokens (f ()) (f' ())) :
    Carries m eof tokens (note record >>= f) (note record' >>= f') := by
  refine (carries_note record record').bind_of fun _ _ _ hFirst => ?_
  cases hFirst
  exact h

theorem Carries.emit_bind (e : Event) {pos pos' : Pos} {f f' : Unit → Recorder β}
    (hPos : pos' = pos.down m.lines) (h : Carries m eof tokens (f ()) (f' ())) :
    Carries m eof tokens (emit e pos >>= f) (emit e pos' >>= f') := by
  refine (carries_emit e hPos).bind_of fun _ _ _ hFirst => ?_
  cases hFirst
  exact h

/-- Steps that look at the next token carry over when they do with the moved token in its place. -/
theorem Carries.peek {f f' : Token → Recorder β}
    (h : Carries m eof tokens (f (tokens.headD eof)) (f' ((m.tokens tokens).headD m.eof))) :
    Carries m eof tokens (current >>= f) (current >>= f') :=
  h

theorem Carries.peek_cons {f f' : Token → Recorder β}
    (h : Carries m eof (t :: more) (f t) (f' (m.token t))) :
    Carries m eof (t :: more) (current >>= f) (current >>= f') :=
  h

theorem Carries.peekNext {f f' : Token → Recorder β}
    (h : Carries m eof tokens (f (tokens.tail.headD eof)) (f' ((m.tokens tokens).tail.headD m.eof))) :
    Carries m eof tokens (following >>= f) (following >>= f') :=
  h

/-- A token that is taken is taken at its other place as well. -/
theorem Carries.advance {f f' : Token → Recorder β} (h : Carries m eof more (f t) (f' (m.token t))) :
    Carries m eof (t :: more) (advance >>= f) (advance >>= f') :=
  h

/-- A step that cannot go on at the end looks at a token that is there. -/
theorem Carries.current {f f' : Token → Recorder β} (hEnd : (f eof).Fails eof [])
    (hNext : ∀ t more, tokens = t :: more → Carries m eof (t :: more) (f t) (f' (m.token t))) :
    Carries m eof tokens (current >>= f) (current >>= f') := by
  cases tokens with
  | nil => exact Fails.carries hEnd
  | cons t more => exact hNext t more rfl

theorem bind_emit {e : Event} {pos : Pos} {f : Unit → Recorder β} :
    (emit e pos >>= f) eof tokens =
      ⟨.event e pos :: (f () eof tokens).emitted, (f () eof tokens).outcome⟩ := rfl

/-- A required token that is there is taken, and nothing is reported. -/
theorem bind_expect {context : Construct} {kind : TokenKind} (ht : t.kind = kind)
    {f : Token → Recorder β} :
    (expect kind context >>= f) eof (t :: more) = f t eof more := by
  have hExpect : (expect kind context : Recorder Token) eof (t :: more) = ⟨[], .ok (t, more)⟩ := by
    change (if t.kind = kind then advance else unexpected context [kind] : Recorder Token) eof
      (t :: more) = _
    rw [if_pos ht]
    rfl
  rw [bind_eq, hExpect]
  rfl

theorem accept_eq (kind : TokenKind) (eof : Token) (tokens : List Token) :
    (accept kind : Recorder Bool) eof tokens =
      if (tokens.headD eof).kind = kind then ⟨[], .ok (true, tokens.tail)⟩
      else ⟨[], .ok (false, tokens)⟩ := by
  change (if _ then (do let _ ← advance; return true) else return false : Recorder Bool) eof tokens = _
  split <;> rfl

/-- An optional token decides how reading goes on. -/
theorem bind_accept {kind : TokenKind} {f : Bool → Recorder β} :
    (accept kind >>= f) eof tokens =
      if (tokens.headD eof).kind = kind then f true eof tokens.tail else f false eof tokens := by
  by_cases hKind : (tokens.headD eof).kind = kind
  · rw [bind_eq, accept_eq, if_pos hKind, if_pos hKind]
    rfl
  · rw [bind_eq, accept_eq, if_neg hKind, if_neg hKind]
    rfl

theorem length_le_of_accept {kind : TokenKind} {emitted : List Emission} {taken : Bool}
    {rest : List Token} (h : (accept kind : Recorder Bool) eof tokens = ⟨emitted, .ok (taken, rest)⟩) :
    rest.length ≤ tokens.length := by
  rw [accept_eq] at h
  split at h
  · cases h
    rw [List.length_tail]
    exact Nat.sub_le ..
  · cases h
    exact Nat.le_refl _

/-- Strings in a row are the same at their other place, provided that what follows all tokens there
is no string. -/
theorem strings_tokens (hTail : (m.tail.headD m.eof).kind ≠ .string) (ts : List Token) :
    (m.tokens ts).takeWhile (·.kind = .string) = (ts.takeWhile (·.kind = .string)).map m.token ∧
      (m.tokens ts).dropWhile (·.kind = .string) = m.tokens (ts.dropWhile (·.kind = .string)) := by
  induction ts with
  | nil =>
      rw [Relocation.tokens_nil]
      cases hMore : m.tail with
      | nil => simp [Relocation.tokens, hMore]
      | cons t tail =>
          rw [hMore] at hTail
          have ht : t.kind ≠ .string := hTail
          simp [Relocation.tokens, hMore, ht]
  | cons t ts ih =>
      rw [Relocation.tokens_cons]
      by_cases ht : t.kind = .string
      · simp [ht, ih]
      · simp [ht]

/-- Strings carry over if the tokens behind them do not add to them. -/
theorem carries_strings (hTail : (m.tail.headD m.eof).kind ≠ .string) :
    Carries m eof tokens strings strings := by
  intro emitted text rest h
  cases h
  obtain ⟨hTaken, hRest⟩ := strings_tokens hTail tokens
  refine ⟨[], ?_, rfl⟩
  rw [strings, hTaken, hRest, List.flatMap_map]
  rfl

/-- What is clear of an option is no value of one. -/
theorem Clear.not_value (h : Clear eof tokens) :
    isKeywordValue (tokens.headD eof) (tokens.tail.headD eof) = false := by
  rcases h with h | h | h | ⟨k, h, hk, hNext⟩
  · exact isKeywordValue_eq_false (by rw [h]; rfl)
  · exact isKeywordValue_eq_false (by rw [h]; rfl)
  · exact isKeywordValue_eq_false (by rw [h]; rfl)
  · refine Bool.eq_false_iff.mpr fun hValue => ?_
    rcases (isKeywordValue_iff h).mp hValue with hDefault | ⟨hColon, hName⟩
    · exact hk hDefault
    · exact hNext.elim hColon hName

end basic

section words

variable {context : Construct} (hEof : eof.kind = .eof)
include hEof

/-- With no token left a required one is missing. -/
theorem fails_expect {kind : TokenKind} (hKind : kind ≠ .eof) :
    (expect kind context).Fails eof [] := by
  intro events t rest h
  obtain ⟨-, hTokens, -⟩ := (reads_expect hEof hKind).mp h
  cases hTokens

theorem fails_word : (word context).Fails eof [] := by
  intro events text rest h
  simp [word, hEof] at h

theorem fails_label : (label context).Fails eof [] := by
  intro events text rest h
  exact Nat.not_lt_zero _ (length_lt_of_label (label_sound hEof h).2)

theorem fails_labels {event : Text → Event} : Fails (labels context event) eof [] := by
  intro events u rest h
  obtain ⟨text, middle, hLabel, -⟩ := (reads_labels hEof).mp h
  exact fails_label hEof _ _ _ hLabel

/-- A declaration of one token only lacks its name. -/
theorem fails_declaration (kind : AxisKind) : (declaration kind).Fails eof [t] := by
  intro events u rest h
  simp only [declaration, reads_current_bind, reads_note_bind, reads_advance_bind,
    List.tail_cons] at h
  exact (fails_expect hEof (by decide)).bind _ _ _ h

theorem fails_alternativeHeader : alternativeHeader.Fails eof [] := by
  intro events u rest h
  rw [alternativeHeader, reads_current_bind, reads_enter_bind, reads_emit_bind] at h
  obtain ⟨_, hLabels, _⟩ := h
  exact (fails_labels hEof).bind _ _ _ hLabels

/-- A required token that is there carries over; if it is missing both readings fail. -/
theorem Carries.expect_bind (kind : TokenKind) (hKind : kind ≠ .eof) {f f' : Token → Recorder β}
    (h : ∀ t rest, Carries m eof rest (f t) (f' (m.token t))) :
    Carries m eof tokens (expect kind context >>= f) (expect kind context >>= f') := by
  cases tokens with
  | nil => exact (fails_expect hEof hKind).bind.carries
  | cons t more =>
      by_cases ht : t.kind = kind
      · have hOther : (m.token t).kind = kind := ht
        intro emitted b rest hRead
        rw [bind_expect ht] at hRead
        rw [Relocation.tokens_cons, bind_expect hOther]
        exact h t more emitted b rest hRead
      · refine Fails.carries (Fails.bind fun events u rest hRead => ?_)
        obtain ⟨-, hTokens, hu⟩ := (reads_expect hEof hKind).mp hRead
        cases hTokens
        exact ht hu

/-- A word carries over under the same proviso as strings, of which it may consist. -/
theorem carries_word (hTail : (m.tail.headD m.eof).kind ≠ .string) :
    Carries m eof tokens (word context) (word context) := by
  cases tokens with
  | nil => exact (fails_word hEof).carries
  | cons t more =>
      refine Carries.peek_cons ?_
      rw [Relocation.kind_token]
      split
      · exact carries_strings hTail
      · exact Carries.advance (carries_pure _)
      · exact Fails.carries fun _ _ _ => reads_unexpected.mp

theorem carries_label (hTail : (m.tail.headD m.eof).kind ≠ .string) :
    Carries m eof tokens (label context) (label context) := by
  cases tokens with
  | nil => exact (fails_label hEof).carries
  | cons t more =>
      refine Carries.peek_cons ?_
      refine Carries.ite Iff.rfl (fun _ => Carries.advance (carries_pure _)) fun _ => ?_
      refine Carries.ite Iff.rfl (fun _ => carries_strings hTail) fun _ => ?_
      exact Fails.carries fun _ _ _ => reads_unexpected.mp

/-- A sign that could go on with labels or a declaration is taken at both places or at none. -/
theorem carries_accept {kind : TokenKind} (hKind : kind ≠ .eof)
    (hTail : (m.tail.headD m.eof).kind ≠ kind) :
    Carries m eof tokens (accept kind) (accept kind) := by
  refine Carries.peek ?_
  cases tokens with
  | nil =>
      rw [Relocation.tokens_nil, List.headD_nil, hEof, if_neg hKind.symm, if_neg hTail]
      exact carries_pure false
  | cons t more =>
      exact Carries.ite Iff.rfl (fun _ => Carries.advance (carries_pure true))
        fun _ => carries_pure false

/-- Labels divided by bars, told by the steps of the reader: the check that tokens were used never
fails. -/
theorem labels_eq_do {event : Text → Event} :
    (labels context event : Recorder Unit) eof tokens = (do
      let first ← current
      let text ← label context
      emit (event text) first.pos
      if ← accept .bar then labels context event else return () : Recorder Unit) eof tokens := by
  rw [labels_eq]
  change _ = (label context >>= _ : Recorder Unit) eof tokens
  rw [bind_eq]
  cases hLabel : (label context : Recorder Text) eof tokens with
  | mk emitted outcome =>
      cases outcome with
      | error e => rfl
      | ok result =>
          obtain ⟨text, middle⟩ := result
          have hLess := length_lt_of_label (label_sound hEof ⟨emitted, hLabel, rfl⟩).2
          dsimp only
          rw [bind_emit, bind_accept]
          cases middle with
          | nil =>
              have hBar : ([].headD eof).kind ≠ .bar := by simp [hEof]
              rw [if_neg hBar]
              rfl
          | cons bar after =>
              rw [List.length_cons] at hLess
              by_cases hBar : bar.kind = .bar
              · have hShort : after.length < tokens.length := by omega
                simp only [List.headD_cons, List.tail_cons, hBar, hShort, if_true, List.append_assoc]
                rfl
              · simp only [List.headD_cons, hBar, if_false]
                rfl

/-- Labels carry over one by one. What begins behind the tokens must be the beginning of a
statement, which neither a bar nor a string is. -/
theorem carries_labels {event : Text → Event} (hOpens : m.Opens) :
    Carries m eof tokens (labels context event) (labels context event) := by
  induction hLength : tokens.length using Nat.strongRecOn generalizing tokens with
  | ind length ih =>
      refine Carries.congr (labels_eq_do hEof) (labels_eq_do hOpens.ends) ?_
      refine Carries.current (fails_label hEof).bind fun first more hTokens => ?_
      refine (carries_label hEof (hOpens.kind_ne (by decide))).bind_of fun _ text _ hLabel => ?_
      refine Carries.emit_bind _ (Relocation.pos_token first) ?_
      refine (carries_accept hEof (by decide) (hOpens.kind_ne (by decide))).bind_of
        fun _ taken after hAccept => ?_
      refine Carries.ite Iff.rfl (fun _ => ih after.length ?_ rfl) fun _ => carries_pure ()
      have hUsed := length_lt_of_label (label_sound hEof ⟨_, hLabel, rfl⟩).2
      rw [← hLength, hTokens]
      exact Nat.lt_of_le_of_lt (length_le_of_accept hAccept) hUsed

end words

section constructs

variable {context : Construct} {u : Token} (hEof : eof.kind = .eof) (hOpens : m.Opens)
include hEof hOpens

theorem carries_toolStatement : Carries m eof (t :: more) toolStatement toolStatement := by
  refine Carries.peek (Carries.note_bind (Carries.advance ?_))
  refine Carries.expect_bind hEof .colon (by decide) fun _ rest => ?_
  refine Carries.current (fails_word hEof).bind fun name _ _ => ?_
  refine (carries_word hEof (hOpens.kind_ne (by decide))).bind fun text rest => ?_
  refine Carries.expect_bind hEof .semicolon (by decide) fun _ rest => ?_
  exact carries_emit _ (Relocation.pos_token name)

theorem carries_inputStatement : Carries m eof (t :: u :: more) inputStatement inputStatement := by
  refine Carries.peek (Carries.note_bind (Carries.advance (Carries.advance ?_)))
  refine Carries.current (fails_word hEof).bind fun name _ _ => ?_
  refine (carries_word hEof (hOpens.kind_ne (by decide))).bind fun text rest => ?_
  refine Carries.expect_bind hEof .semicolon (by decide) fun _ rest => ?_
  exact carries_emit _ (Relocation.pos_token name)

/-- The clause is there or not at the other place as well, since what comes behind does not start
with a comma. -/
theorem carries_defaultClause (kind : AxisKind) (name : Text) :
    Carries m eof tokens (defaultClause kind name) (defaultClause kind name) := by
  refine (carries_accept hEof (by decide) (hOpens.kind_ne (by decide))).bind fun _ _ => ?_
  refine Carries.ite Iff.rfl (fun _ => ?_) fun _ => carries_pure ()
  refine Carries.expect_bind hEof (.keyword .default) (by decide) fun _ _ => ?_
  refine Carries.expect_bind hEof .colon (by decide) fun _ _ => ?_
  refine Carries.current (fails_label hEof).bind fun l _ _ => ?_
  refine (carries_label hEof (hOpens.kind_ne (by decide))).bind fun text _ => ?_
  exact carries_emit _ (Relocation.pos_token l)

/-- A declaration carries over with all its events, each at the place of its token. -/
theorem carries_declaration (kind : AxisKind) :
    Carries m eof (t :: more) (declaration kind) (declaration kind) := by
  refine Carries.peek (Carries.note_bind (Carries.advance ?_))
  refine Carries.expect_bind hEof .name (by decide) fun name _ => ?_
  refine Carries.emit_bind _ (Relocation.pos_token name) ?_
  refine Carries.expect_bind hEof .colon (by decide) fun _ _ => ?_
  refine (carries_labels hEof hOpens).bind fun _ _ => ?_
  refine (carries_defaultClause hEof hOpens kind name.value).bind fun _ _ => ?_
  exact Carries.expect_bind hEof .semicolon (by decide) fun _ _ => carries_pure ()

theorem carries_selectStatement : Carries m eof (t :: more) selectStatement selectStatement := by
  refine Carries.peek (Carries.note_bind (Carries.advance ?_))
  refine Carries.expect_bind hEof .name (by decide) fun name _ => ?_
  refine Carries.expect_bind hEof .colon (by decide) fun _ _ => ?_
  refine (carries_label hEof (hOpens.kind_ne (by decide))).bind fun text _ => ?_
  refine Carries.expect_bind hEof .semicolon (by decide) fun _ _ => ?_
  exact carries_emit _ (Relocation.pos_token name)

omit hOpens in
theorem carries_everyStatement : Carries m eof (t :: more) everyStatement everyStatement := by
  refine Carries.peek (Carries.note_bind (Carries.advance ?_))
  refine Carries.expect_bind hEof .name (by decide) fun name _ => ?_
  refine Carries.expect_bind hEof .semicolon (by decide) fun _ _ => ?_
  exact carries_emit _ (Relocation.pos_token name)

/-- A pair of words is one at both places: what comes behind is neither a sign nor a word that touches
one. -/
theorem carries_compoundValue : Carries m eof (t :: more) compoundValue compoundValue := by
  refine Carries.advance (Carries.peek (Carries.peekNext ?_))
  match more with
  | [] =>
      have hOther : (m.tail.headD m.eof).kind ≠ .equals ∧ (m.tail.headD m.eof).kind ≠ .colon :=
        ⟨hOpens.kind_ne (by decide), hOpens.kind_ne (by decide)⟩
      rw [if_neg (by simp [hEof]), if_neg]
      · exact carries_pure _
      · rw [Relocation.tokens_nil, decide_eq_false hOther.1, decide_eq_false hOther.2]
        exact Bool.false_ne_true
  | [sign] =>
      have hEnd : eof.kind.isWord = false := by
        rw [hEof]
        rfl
      rw [if_neg (by simp [hEnd]), if_neg]
      · exact carries_pure _
      · intro hTouch
        simp only [Relocation.tokens_cons, Relocation.tokens_nil, List.tail_cons,
          Bool.and_eq_true, Bool.not_eq_true'] at hTouch
        have hSpaced := hOpens.spaced hTouch.1.2
        rw [hTouch.2] at hSpaced
        cases hSpaced
  | sign :: y :: more =>
      exact Carries.ite Iff.rfl (fun _ => Carries.advance (Carries.advance (carries_pure _)))
        fun _ => carries_pure _

/-- An option takes the same value at both places: what comes behind is no value of it. -/
theorem carries_option : Carries m eof (t :: more) option option := by
  refine Carries.advance (Carries.note_bind ?_)
  cases more with
  | nil =>
      have hHere : ¬ isKeywordValue eof eof = true := by
        rw [isKeywordValue_eq_false (by rw [hEof]; rfl)]
        exact Bool.false_ne_true
      have hThere : ¬ isKeywordValue (m.tail.headD m.eof) (m.tail.tail.headD m.eof) = true := by
        rw [hOpens.clear.not_value]
        exact Bool.false_ne_true
      refine Carries.peek ?_
      rw [List.headD_nil, hEof, Relocation.tokens_nil]
      dsimp only
      rcases hOpens.clear with h | h | h | ⟨k, h, -⟩ <;> rw [h] <;>
        exact Carries.peekNext (Carries.ite (iff_of_false hThere hHere) (fun h => absurd h hHere)
          fun _ => carries_emit _ (Relocation.pos_token t))
  | cons x more =>
      have hBare : Carries m eof (x :: more) (emit (.addSwitch { name := t.raw }) t.pos)
          (emit (.addSwitch { name := (m.token t).raw }) (m.token t).pos) :=
        carries_emit _ (Relocation.pos_token t)
      have hValue : Carries m eof (x :: more)
          (compoundValue >>= fun value =>
            emit (.addSwitch { name := t.raw, value, hasValue := true }) t.pos)
          (compoundValue >>= fun value =>
            emit (.addSwitch { name := (m.token t).raw, value, hasValue := true }) (m.token t).pos) :=
        (carries_compoundValue hEof hOpens).bind fun _ _ =>
          carries_emit _ (Relocation.pos_token t)
      refine Carries.peek_cons ?_
      rw [Relocation.kind_token]
      cases hKind : x.kind with
      | string =>
          exact (carries_strings (hOpens.kind_ne (by decide))).bind fun _ _ =>
            carries_emit _ (Relocation.pos_token t)
      | name | integer | double => exact hValue
      | illegal => exact Fails.carries fun _ _ _ => reads_fail.mp
      | keyword k =>
          refine Carries.peekNext (Carries.ite ?_ (fun _ => hValue) fun _ => hBare)
          cases more with
          | nil =>
              have hOther : (m.tail.headD m.eof).kind ≠ .colon ∧ (m.tail.headD m.eof).kind ≠ .name :=
                ⟨hOpens.kind_ne (by decide), hOpens.kind_ne (by decide)⟩
              rw [isKeywordValue_iff (x := m.token x) hKind, isKeywordValue_iff hKind]
              refine or_congr_right (iff_of_true hOther ?_)
              simp [hEof]
          | cons y more => exact Iff.rfl
      | _ =>
          have hNone : ∀ {u v : Token}, u.kind = x.kind → ¬ isKeywordValue u v = true := by
            intro u v hu
            rw [isKeywordValue_eq_false (by rw [hu, hKind]; rfl)]
            exact Bool.false_ne_true
          exact Carries.peekNext (Carries.ite (iff_of_false (hNone rfl) (hNone rfl))
            (fun _ => hValue) fun _ => hBare)

theorem carries_caseHeader :
    Carries m eof (t :: more) (caseHeader context) (caseHeader context) := by
  refine Carries.advance (Carries.note_bind ?_)
  refine Carries.expect_bind hEof .name (by decide) fun name _ => ?_
  refine Carries.emit_bind _ (Relocation.pos_token name) ?_
  refine Carries.expect_bind hEof .colon (by decide) fun _ rest => Carries.peek ?_
  cases rest with
  | nil =>
      rw [List.headD_nil, hEof, Relocation.tokens_nil, if_neg (by decide),
        if_neg hOpens.not_semicolon]
      exact carries_pure _
  | cons first rest =>
      exact Carries.ite Iff.rfl (fun _ => Fails.carries fun _ _ _ => reads_fail.mp)
        fun _ => carries_pure _

theorem carries_alternativeHeader :
    Carries m eof tokens alternativeHeader alternativeHeader := by
  cases tokens with
  | nil => exact (fails_alternativeHeader hEof).carries
  | cons first more =>
      refine Carries.peek_cons (Carries.note_bind ?_)
      refine Carries.emit_bind _ (Relocation.pos_token first) ?_
      refine (carries_labels hEof hOpens).bind fun _ _ => ?_
      exact Carries.expect_bind hEof .colon (by decide) fun _ _ => carries_pure ()

end constructs

end Reader

namespace Place

open Reader

variable {m : Relocation} {eof : Token} {tokens : List Token} {subject : Text} {outer : Place}
  (hEof : eof.kind = .eof) (hOpens : m.Opens)
include hEof hOpens

/-- Whichever statement begins at the next token begins at the moved one. -/
theorem carries_statement : Carries m eof tokens statement statement := by
  have hReturn : ∀ {x : Recorder Unit} {ts : List Token}, Carries m eof ts x x →
      Carries m eof ts (do x; return statements) (do x; return statements) :=
    fun h => h.bind fun _ _ => carries_pure _
  refine Carries.current ?_ fun t more _ => ?_
  · intro events place rest h
    simp [hEof] at h
  rw [Relocation.kind_token]
  split
  · exact hReturn (carries_toolStatement hEof hOpens)
  · cases more with
    | nil =>
        refine Fails.carries fun events place rest h => ?_
        rw [reads_following_bind, List.tail_cons, List.headD_nil, hEof, if_neg (by decide)] at h
        exact (fails_declaration hEof .input).bind _ _ _ h
    | cons u more =>
        exact Carries.peekNext (Carries.ite Iff.rfl
          (fun _ => hReturn (carries_inputStatement hEof hOpens))
          fun _ => hReturn (carries_declaration hEof hOpens .input))
  · exact hReturn (carries_declaration hEof hOpens .choice)
  · exact (carries_caseHeader hEof hOpens).bind fun _ _ => carries_pure _
  · exact hReturn (carries_selectStatement hEof hOpens)
  · exact hReturn (carries_everyStatement hEof)
  · exact hReturn (carries_option hEof hOpens)
  · exact Fails.carries fun _ _ _ => reads_unexpected.mp

theorem carries_nextAlternative :
    Carries m eof tokens (nextAlternative subject outer) (nextAlternative subject outer) := by
  refine Carries.current ?_ fun t more _ => Carries.ite Iff.rfl (fun _ => ?_) fun _ => ?_
  · rw [hEof, if_neg (by decide)]
    exact (fails_alternativeHeader hEof).bind
  · exact Carries.advance (Carries.note_bind
      (Carries.emit_bind _ (Relocation.pos_token t) (carries_pure _)))
  · exact (carries_alternativeHeader hEof hOpens).bind fun _ _ => carries_pure _

/-- Elements of an alternative carry over like statements. -/
theorem carries_element : Carries m eof tokens (element subject outer) (element subject outer) := by
  refine Carries.current ?_ fun t more _ => ?_
  · intro events place rest h
    simp [hEof] at h
  rw [Relocation.kind_token]
  split
  · exact Carries.advance (Carries.emit_bind _ (Relocation.pos_token t) (carries_pure _))
  · exact (carries_option hEof hOpens).bind fun _ _ => carries_pure _
  · exact (carries_caseHeader hEof hOpens).bind fun _ _ => carries_pure _
  · exact Fails.carries fun _ _ _ => reads_unexpected.mp

/-- Every step at a place is carried over. -/
theorem carries_step (place : Place) : Carries m eof tokens place.step place.step := by
  cases place with
  | statements => exact carries_statement hEof hOpens
  | alternatives subject outer => exact carries_nextAlternative hEof hOpens
  | elements subject outer => exact carries_element hEof hOpens

end Place

end Runsheet

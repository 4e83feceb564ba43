import Runsheet.Proofs.Script.Completion

/-! The constructs of the grammar that break off. Each of them is completed by a few fillers; an option
needs none, since it breaks off only before a fault, where it has no value yet. -/
namespace Runsheet

namespace Reader

open Filler (Fill)

variable {α β : Type} {eof t : Token} {tokens rest : List Token} {events : List (Event × Pos)}
  {context : Construct}

section words

variable {F : Follow} {fs : List Filler} (hEof : eof.kind = .eof)
include hEof

/-- A step without events, said by what spells its values: it takes a spelling of a value, or breaks
off at the first token. -/
theorem mendable_of_spelling {x : Recorder α} {p : α → Spelling}
    (hSound : ∀ {eof tokens own a rest}, eof.kind = .eof → x.Reads eof tokens own a rest →
      own = [] ∧ (p a).Takes tokens rest)
    (hComplete : ∀ {eof tokens a rest}, (p a).Takes tokens rest → F eof rest →
      x.Reads eof tokens [] a rest)
    (hBreaks : ∀ {eof tokens events e}, x.told eof tokens = (events, .error e) →
      events = [] ∧ e.About (tokens.headD eof))
    (hFill : ∀ {more}, Fill fs more → ∃ a, p a (more.map Token.symbol)) : x.Mendable F fs eof := by
  have hFilled : x.Filled F fs := by
    intro eof more rest _ hMore hRest
    obtain ⟨a, ha⟩ := hFill hMore
    exact ⟨_, a, told_of_silent (hComplete ⟨more, rfl, ha⟩ hRest)⟩
  refine ⟨hFilled, fun tokens => ⟨fun {events a rest} hRead => ?_, fun hBreak => ?_⟩⟩
  · obtain ⟨hOwn, read, rfl, hSpelled⟩ := hSound hEof (reads_of_told hRead)
    refine ⟨read, rfl, fun _ hRest => ?_⟩
    rw [List.map_eq_nil_iff.mp hOwn]
    exact told_of_silent (hComplete ⟨read, rfl, hSpelled⟩ hRest)
  · obtain ⟨rfl, hAbout⟩ := hBreaks hBreak
    refine ⟨[], tokens, fs, rfl, hAbout, fun hEof' hMore hRest => ?_⟩
    obtain ⟨events, a, hMended⟩ := hFilled hEof' hMore hRest
    exact ⟨events, a, hMended, List.nil_prefix⟩

/-- A missing word is replaced by a name. A string must not come behind it, for it would be put
together with strings before it. -/
theorem mendable_word : (word context).Mendable (noneOf [.string]) [.name] eof := by
  refine mendable_of_spelling hEof (fun h => word_sound h) (fun h hRest => word_complete h ?_) ?_ ?_
  · exact hRest.kind_ne (List.mem_singleton_self _)
  · intro eof tokens events e h
    rw [word, told_current_bind] at h
    split at h
    · cases h
    · cases h
    · cases h
      exact ⟨rfl, SyntaxError.about_unexpected _ _ _⟩
  · intro more hMore
    obtain ⟨t, _, rfl, ht, hMore⟩ := Filler.fill_cons.mp hMore
    obtain rfl := Filler.fill_nil.mp hMore
    exact ⟨t.value, Or.inl ⟨_, rfl, ht, rfl⟩⟩

theorem mendable_label : (label context).Mendable (noneOf [.string]) [.name] eof := by
  refine mendable_of_spelling hEof (fun h => label_sound h) (fun h hRest => label_complete h ?_) ?_ ?_
  · exact hRest.kind_ne (List.mem_singleton_self _)
  · intro eof tokens events e h
    rw [label, told_current_bind] at h
    split at h
    · cases h
    · split at h
      · cases h
      · cases h
        exact ⟨rfl, SyntaxError.about_unexpected _ _ _⟩
  · intro more hMore
    obtain ⟨t, _, rfl, ht, hMore⟩ := Filler.fill_cons.mp hMore
    obtain rfl := Filler.fill_nil.mp hMore
    refine ⟨t.value, Or.inl ⟨_, rfl, ?_, rfl⟩⟩
    rw [Token.kind_symbol, ht]
    rfl

/-- A step together with the token at which it begins. -/
def placed (x : Recorder α) : Recorder (Token × α) := do
  let t ← current
  let a ← x
  return (t, a)

omit hEof in
/-- Remembering the token at which a step begins changes neither its events nor the tokens it takes.
-/
theorem told_placed {x : Recorder α} (outcome : Except SyntaxError (α × List Token))
    (h : x.told eof tokens = (events, outcome)) :
    (placed x).told eof tokens =
      (events, outcome.map fun (a, rest) => ((tokens.headD eof, a), rest)) := by
  change (x >>= fun a => pure (tokens.headD eof, a)).told eof tokens = _
  rcases outcome with e | ⟨a, rest⟩
  · rw [told_bind_of_error _ h]
    rfl
  · rw [told_bind_of_ok _ h]
    exact Prod.ext (List.append_nil _) rfl

omit hEof in
/-- A construct that looks at the next token and then reads something with it may be cut behind what
it read. -/
theorem told_placed_bind {x : Recorder α} {g : Token → α → Recorder β} :
    (current >>= fun t => x >>= g t).told eof tokens =
      (placed x >>= fun p => g p.1 p.2).told eof tokens := by
  change (x >>= g (tokens.headD eof)).told eof tokens = _
  rcases h : x.told eof tokens with ⟨events, e | ⟨a, rest⟩⟩
  · rw [told_bind_of_error _ h, told_bind_of_error _ (told_placed _ h)]
  · rw [told_bind_of_ok _ h, told_bind_of_ok _ (told_placed _ h)]

omit hEof in
/-- A step that takes a token begins at one that it reads. -/
theorem Mendable.placed {x : Recorder α}
    (hTakes : ∀ {tokens events a rest}, x.told eof tokens = (events, .ok (a, rest)) →
      rest.length < tokens.length)
    (hx : x.Mendable F fs eof) : (placed x).Mendable F fs eof := by
  have hPlaced : ∀ {eof tokens events a rest}, x.told eof tokens = (events, .ok (a, rest)) →
      (Reader.placed x).told eof tokens = (events, .ok ((tokens.headD eof, a), rest)) :=
    fun h => told_placed _ h
  refine ⟨fun eof more rest hEof hFill hRest => ?_, fun tokens => ⟨fun {events p rest} hRead => ?_,
    fun {events e} hBreak => ?_⟩⟩
  · obtain ⟨events, a, h⟩ := hx.filled hEof hFill hRest
    exact ⟨_, _, hPlaced h⟩
  · rcases h : x.told eof tokens with ⟨own, e | ⟨a, middle⟩⟩
    · rw [told_placed _ h] at hRead
      cases hRead
    · rw [hPlaced h] at hRead
      cases hRead
      obtain ⟨read, rfl, hOther⟩ := (hx.completable tokens).reads h
      have hLess := hTakes h
      refine ⟨read, rfl, fun hEof' hRest => ?_⟩
      rw [hPlaced (hOther hEof' hRest)]
      cases read with
      | nil => exact absurd hLess (Nat.lt_irrefl _)
      | cons t read => rfl
  · rcases h : x.told eof tokens with ⟨own, e | ⟨a, middle⟩⟩
    · rw [told_placed _ h] at hBreak
      cases hBreak
      obtain ⟨read, blamed, fillers, hTokens, hAbout, hOther⟩ := (hx.completable tokens).breaks h
      refine ⟨read, blamed, fillers, hTokens, hAbout, fun hEof' hFill hRest => ?_⟩
      obtain ⟨events', a, hMended, hEvents⟩ := hOther hEof' hFill hRest
      exact ⟨events', _, hPlaced hMended, hEvents⟩
    · rw [hPlaced h] at hBreak
      cases hBreak

theorem mendable_placed_word : (placed (word context)).Mendable (noneOf [.string]) [.name] eof := by
  refine (mendable_word hEof).placed fun h => ?_
  obtain ⟨-, used, rfl, hUsed⟩ := word_sound hEof (reads_of_told h)
  have hSome : used ≠ [] := by
    rintro rfl
    rcases hUsed with ⟨s, hs, -⟩ | ⟨hs, -⟩
    · cases hs
    · exact hs rfl
  rw [List.length_append]
  exact Nat.lt_add_of_pos_left (List.length_pos_iff.mpr hSome)

theorem mendable_placed_label : (placed (label context)).Mendable (noneOf [.string]) [.name] eof :=
  (mendable_label hEof).placed fun h =>
    length_lt_of_label (label_sound hEof (reads_of_told h)).2

/-- A sign that may be left out: what comes behind does not start with it. -/
theorem Completable.accept {kind : TokenKind} {y : Recorder Unit} (hKind : kind ≠ .eof)
    (hF : ∀ {eof rest}, F eof rest → (rest.headD eof).kind ≠ kind)
    (hy : ∀ {t more}, tokens = t :: more → y.Completable F eof more) :
    Completable F eof tokens (accept kind >>= fun taken => if taken then y else pure ()) := by
  by_cases hHead : (tokens.headD eof).kind = kind
  · obtain ⟨t, more, rfl, ht⟩ := cons_of_headD_kind hEof hHead hKind
    refine (hy rfl).cons fun {eof tokens} => ?_
    rw [told_accept_bind, List.headD_cons, if_pos ht]
    rfl
  · refine ⟨fun hRead => ?_, fun hBreak => ?_⟩
    · rw [told_accept_bind, if_neg hHead] at hRead
      cases hRead
      refine ⟨[], rfl, fun _ hRest => ?_⟩
      rw [List.nil_append, told_accept_bind, if_neg (hF hRest)]
      rfl
    · rw [told_accept_bind, if_neg hHead] at hBreak
      cases hBreak

omit hEof in
/-- An optional part needs no filler, if what comes behind is not mistaken for its first token. -/
theorem filled_accept {kind : TokenKind} {y : Recorder Unit}
    (hF : ∀ {eof rest}, F eof rest → (rest.headD eof).kind ≠ kind) :
    (accept kind >>= fun taken => if taken then y else pure ()).Filled F [] := by
  intro eof more rest _ hFill hRest
  rw [Filler.fill_nil.mp hFill, List.nil_append, told_accept_bind, if_neg (hF hRest)]
  exact ⟨_, _, rfl⟩

def moreLabels (context : Construct) (event : Text → Event) (first : Token × Text) :
    Recorder Unit := do
  emit (event first.2) first.1.pos
  if ← accept .bar then labels context event else return ()

omit hEof in
/-- Labels in a row are one label and then, if a bar comes next, further ones, so that they can be
mended label by label. -/
theorem told_labels {event : Text → Event} (hEof : eof.kind = .eof) :
    told (labels context event) eof tokens =
      (placed (label context) >>= moreLabels context event).told eof tokens := by
  have hEq : labels context event eof tokens = _ := labels_eq_do hEof
  refine Eq.trans ?_ (told_placed_bind (x := label context)
    (g := fun first text => moreLabels context event (first, text)))
  exact congrArg (fun r : Reading Unit => (located r.emitted, r.outcome)) hEq

omit hEof in
theorem links_moreLabels (event : Text → Event) :
    Links (noneOf [.string]) (noneOf [.string, .bar]) (moreLabels context event) := by
  intro p eof tokens events u rest _ h hRest
  rw [moreLabels, told_bind_of_ok _ rfl, told_accept_bind] at h
  by_cases hHead : (tokens.headD eof).kind = .bar
  · exact noneOf_of_kind hHead (by decide)
  · rw [if_neg hHead] at h
    cases h
    exact hRest.mono (by decide)

omit hEof in
/-- After a label the row may end, provided that neither a string nor a bar comes next. -/
theorem filled_moreLabels (event : Text → Event) (p : Token × Text) :
    (moreLabels context event p).Filled (noneOf [.string, .bar]) [] := by
  have hEmit : (emit (event p.2) p.1.pos).Mendable anything [] p.1 := mendable_emit _ _
  exact hEmit.filled.bind (fun _ => filled_accept fun hRest => hRest.kind_ne (by decide))
    links_anything

/-- Wherever an error stops a row of labels, one name in place of what stands there completes it. By
induction on the tokens. -/
theorem mendable_labels (event : Text → Event) :
    Mendable (noneOf [.string, .bar]) [.name] eof (labels context event) := by
  have hLabel : (placed (label context)).Mendable (noneOf [.string]) [.name] eof :=
    mendable_placed_label hEof
  refine ⟨(hLabel.filled.bind (filled_moreLabels event) (links_moreLabels event)).congr told_labels,
    fun tokens => ?_⟩
  -- Behind a bar come labels again, of fewer tokens; what completes them completes the whole row.
  induction hLength : tokens.length using Nat.strongRecOn generalizing tokens with
  | ind length ih =>
      refine Completable.congr hEof told_labels ?_
      refine (hLabel.completable tokens).bind (fun {events p rest} hFirst => ?_)
        (filled_moreLabels event) (links_moreLabels event)
      refine ((mendable_emit _ _).completable rest).bind (fun hEmit => ?_)
        (fun _ => filled_accept fun hRest => hRest.kind_ne (by decide)) links_anything
      cases hEmit
      refine Completable.accept hEof (by decide) (fun hRest => hRest.kind_ne (by decide)) ?_
      rintro bar after rfl
      obtain ⟨_, hRead, -⟩ := reads_bind_pure.mp (reads_current_bind.mp (reads_of_told hFirst))
      have hLess := length_lt_of_label (label_sound hEof hRead).2
      exact ih after.length (hLength ▸ Nat.lt_of_succ_lt hLess) after rfl

end words

/-- The labels of an alternative and the colon after them, without the report of its beginning. -/
def alternativeLabels : Recorder Unit := do
  labels .alternative .addAlternativeLabel
  let _ ← expect .colon .alternative
  return ()

section constructs

variable (hEof : eof.kind = .eof)
include hEof

/-- The end of a tool statement and of a source statement. -/
theorem mendable_word_stop (context : Construct) (event : Text → Event) :
    (do let token ← current
        let name ← word context
        let _ ← expect .semicolon context
        emit (event name) token.pos : Recorder Unit).Mendable anything [.name, .semicolon] eof := by
  refine Mendable.congr ?_ hEof fun _ => told_placed_bind
  exact (mendable_placed_word hEof).bind (fun p => (mendable_expect hEof .semicolon).bind
    (fun _ => mendable_emit _ _) links_anything) (links_expect (by decide))

/-- A tool statement is completed from any error on by what it still lacks of colon, name and
semicolon. -/
theorem mendable_toolStatement (t : Token) :
    (toolStatement.behind [t]).Mendable anything [.colon, .name, .semicolon] eof := by
  refine Mendable.congr (y := do
    let _ ← expect .colon .toolStatement
    let token ← current
    let name ← word .toolStatement
    let _ ← expect .semicolon .toolStatement
    emit (.setTool name) token.pos) ?_ hEof fun _ => rfl
  exact (mendable_expect hEof .colon).bind (fun _ => mendable_word_stop hEof _ _) links_anything

theorem mendable_inputStatement (t u : Token) :
    (inputStatement.behind [t, u]).Mendable anything [.name, .semicolon] eof :=
  (mendable_word_stop hEof .inputStatement .addSource).congr hEof fun _ => rfl

/-- The same for a select statement, which has a name on either side of its colon. -/
theorem mendable_selectStatement (t : Token) :
    (selectStatement.behind [t]).Mendable anything [.name, .colon, .name, .semicolon] eof := by
  refine Mendable.congr (y := do
    let token ← expect .name .selectStatement
    let _ ← expect .colon .selectStatement
    let text ← label .selectStatement
    let _ ← expect .semicolon .selectStatement
    emit (.select token.value text) token.pos) ?_ hEof fun _ => rfl
  refine (mendable_expect hEof .name).bind (fun name => ?_) links_anything
  refine (mendable_expect hEof .colon).bind (fun _ => ?_) links_anything
  exact (mendable_label hEof).bind (fun text => (mendable_expect hEof .semicolon).bind
    (fun _ => mendable_emit _ _) links_anything) (links_expect (by decide))

theorem mendable_everyStatement (t : Token) :
    (everyStatement.behind [t]).Mendable anything [.name, .semicolon] eof := by
  refine Mendable.congr (y := do
    let token ← expect .name .everyStatement
    let _ ← expect .semicolon .everyStatement
    emit (.select token.value allLabels) token.pos) ?_ hEof fun _ => rfl
  refine (mendable_expect hEof .name).bind (fun name => ?_) links_anything
  exact (mendable_expect hEof .semicolon).bind (fun _ => mendable_emit _ _) links_anything

/-- The default label of a declaration, before its semicolon. -/
theorem mendable_defaultClause (kind : AxisKind) (name : Text) :
    (defaultClause kind name).Mendable (noneOf [.string, .comma]) [] eof := by
  refine ⟨filled_accept fun hRest => hRest.kind_ne (by decide), fun tokens => ?_⟩
  refine Completable.accept hEof (by decide) (fun hRest => hRest.kind_ne (by decide)) ?_
  intro comma more _
  have hLabel : (do
      let token ← current
      let text ← label .defaultLabel
      emit (.setDefault kind name text) token.pos : Recorder Unit).Mendable
        (noneOf [.string, .comma]) [.name] eof := by
    refine Mendable.congr ?_ hEof fun _ => told_placed_bind
    refine (mendable_placed_label hEof).bind (fun p => (mendable_emit _ _).mono fun _ _ => trivial) ?_
    intro p eof tokens events u rest _ h hRest
    cases h
    exact hRest.mono (by decide)
  have hDefault : (do
      let _ ← expect (.keyword .default) (.declaration kind)
      let _ ← expect .colon .defaultLabel
      let token ← current
      let text ← label .defaultLabel
      emit (.setDefault kind name text) token.pos : Recorder Unit).Mendable
        (noneOf [.string, .comma]) [.default, .colon, .name] eof :=
    (mendable_expect hEof .default).bind
      (fun _ => (mendable_expect hEof .colon).bind (fun _ => hLabel) links_anything) links_anything
  exact hDefault.completable more

omit hEof in
/-- Behind the labels of a declaration comes its default or its end. -/
theorem links_defaultClause (kind : AxisKind) (name : Text) :
    Links (noneOf [.string, .bar]) anything fun _ : Unit => (do
      defaultClause kind name
      let _ ← expect .semicolon context
      return () : Recorder Unit) := by
  intro _ eof tokens events u rest _ h _
  by_cases hHead : (tokens.headD eof).kind = .comma
  · exact noneOf_of_kind hHead (by decide)
  · have hNone : (defaultClause kind name).told eof tokens = ([], .ok ((), tokens)) := by
      rw [defaultClause, told_accept_bind, if_neg hHead]
      rfl
    obtain ⟨_, _, _, _, hFirst, hStop, -⟩ := told_bind_eq_ok h
    cases hNone.symm.trans hFirst
    exact noneOf_of_kind (headD_kind_of_expect hStop) (by decide)

/-- A declaration that lacks everything is completed by a name, a colon, one label and a semicolon.
-/
theorem mendable_declaration (kind : AxisKind) (t : Token) :
    ((declaration kind).behind [t]).Mendable anything [.name, .colon, .name, .semicolon] eof := by
  refine Mendable.congr (y := do
    let token ← expect .name (.declaration kind)
    emit (.declare kind token.value) token.pos
    let _ ← expect .colon (.declaration kind)
    labels (.declaration kind) (.addLabel kind token.value)
    defaultClause kind token.value
    let _ ← expect .semicolon (.declaration kind)
    return ()) ?_ hEof fun _ => rfl
  refine (mendable_expect hEof .name).bind (fun name => ?_) links_anything
  refine (mendable_emit _ _).bind (fun _ => ?_) links_anything
  refine (mendable_expect hEof .colon).bind (fun _ => ?_) links_anything
  refine (mendable_labels hEof _).bind (fun _ => ?_) (links_defaultClause kind name.value)
  exact (mendable_defaultClause hEof kind name.value).bind
    (fun _ => (mendable_expect hEof .semicolon).bind (fun _ => mendable_pure _) links_anything)
    (links_expect (by decide))

omit hEof in
/-- A case statement without an alternative is mended by anything but a semicolon, and the
alternative then follows. -/
theorem mendable_firstAlternative (error : Token → SyntaxError) (hAbout : ∀ t, (error t).About t)
    (a : α) :
    (do let first ← current
        if first.kind = .semicolon then fail (error first) else return a : Recorder α).Mendable
      (noneOf [.semicolon]) [] eof := by
  have hTold : ∀ {eof : Token} {tokens : List Token}, (do
      let first ← current
      if first.kind = .semicolon then fail (error first) else return a : Recorder α).told eof tokens =
        if (tokens.headD eof).kind = .semicolon then ([], .error (error (tokens.headD eof)))
        else ([], .ok (a, tokens)) := by
    intro eof tokens
    change (if (tokens.headD eof).kind = .semicolon then fail (error (tokens.headD eof))
      else pure a).told eof tokens = _
    split <;> rfl
  have hFilled : ∀ {eof : Token} {rest : List Token}, noneOf [.semicolon] eof rest → (do
      let first ← current
      if first.kind = .semicolon then fail (error first) else return a : Recorder α).told eof rest =
        ([], .ok (a, rest)) := by
    intro eof rest hRest
    rw [hTold, if_neg (hRest.kind_ne (List.mem_singleton_self _))]
  refine ⟨fun eof more rest _ hFill hRest => ?_, fun tokens => ⟨fun hRead => ?_, fun hBreak => ?_⟩⟩
  · rw [Filler.fill_nil.mp hFill]
    exact ⟨_, _, hFilled hRest⟩
  · rw [hTold] at hRead
    split at hRead
    · cases hRead
    · cases hRead
      exact ⟨[], rfl, fun _ hRest => hFilled hRest⟩
  · rw [hTold] at hBreak
    split at hBreak
    · cases hBreak
      refine ⟨[], tokens, [], rfl, hAbout _, fun _ hFill hRest => ?_⟩
      rw [Filler.fill_nil.mp hFill]
      exact ⟨_, _, hFilled hRest, List.nil_prefix⟩
    · cases hBreak

/-- The head of a case statement: an alternative must come behind it, and no semicolon. -/
theorem mendable_caseHeader (t : Token) :
    ((caseHeader context).behind [t]).Mendable (noneOf [.semicolon]) [.name, .colon] eof := by
  refine Mendable.congr (y := do
    let subject ← expect .name context
    emit (.beginCase subject.value) subject.pos
    let _ ← expect .colon context
    let first ← current
    if first.kind = .semicolon then
      fail { (SyntaxError.ofToken first "no alternative").within context with
        suggestion := "give each label of '" ++ subject.value ++ "' an alternative" }
    else return subject.value) ?_ hEof fun _ => rfl
  refine (mendable_expect hEof .name).bind (fun subject => ?_) links_anything
  refine (mendable_emit _ _).bind (fun _ => ?_) links_anything
  refine (mendable_expect hEof .colon).bind (fun _ => ?_) links_anything
  exact mendable_firstAlternative (fun first =>
    { (SyntaxError.ofToken first "no alternative").within context with
      suggestion := "give each label of '" ++ subject.value ++ "' an alternative" })
    (fun _ => ⟨rfl, rfl, rfl, rfl⟩) subject.value

theorem mendable_alternativeLabels : alternativeLabels.Mendable anything [.name, .colon] eof := by
  exact (mendable_labels hEof _).bind (fun _ => (mendable_expect hEof .colon).bind
    (fun _ => mendable_pure _) links_anything) (links_expect (by decide))

/-- A colon tells a source statement from a declaration, and a declaration that is completed has
none there. -/
theorem mendable_inputConstruct (t : Token) :
    ((do if (← following).kind = .colon then inputStatement else declaration .input :
      Recorder Unit).behind [t]).Mendable anything [.name, .colon, .name, .semicolon] eof := by
  have hTold : ∀ {eof tokens}, ((do
      if (← following).kind = .colon then inputStatement else declaration .input :
        Recorder Unit).behind [t]).told eof tokens =
      if (tokens.headD eof).kind = .colon then (inputStatement.behind [t]).told eof tokens
      else ((declaration .input).behind [t]).told eof tokens := by
    intro eof tokens
    change (if (tokens.headD eof).kind = .colon then inputStatement else declaration .input).told eof
      (t :: tokens) = _
    split <;> rfl
  have hName : ∀ {eof tokens events rest},
      ((declaration .input).behind [t]).told eof tokens = (events, .ok ((), rest)) →
      (tokens.headD eof).kind ≠ .colon := by
    intro eof tokens events rest h
    have hExpect : (tokens.headD eof).kind = .name := headD_kind_of_expect h
    rw [hExpect]
    decide
  have hDeclaration := mendable_declaration hEof .input t
  refine ⟨fun eof more rest hEof' hFill hRest => ?_, fun tokens => ?_⟩
  · obtain ⟨events, _, h⟩ := hDeclaration.filled hEof' hFill hRest
    exact ⟨events, (), by rw [hTold, if_neg (hName h), h]⟩
  by_cases hColon : (tokens.headD eof).kind = .colon
  · obtain ⟨u, more, rfl, hu⟩ := cons_of_headD_kind hEof hColon (by decide)
    refine ((mendable_inputStatement hEof t u).completable more).cons fun {eof tokens} => ?_
    rw [hTold, List.headD_cons, if_pos hu]
    rfl
  · refine ⟨fun hRead => ?_, fun hBreak => ?_⟩
    · rw [hTold, if_neg hColon] at hRead
      obtain ⟨read, hTokens, hOther⟩ := (hDeclaration.completable tokens).reads hRead
      refine ⟨read, hTokens, fun hEof' hRest => ?_⟩
      have h := hOther hEof' hRest
      rw [hTold, if_neg (hName h), h]
    · rw [hTold, if_neg hColon] at hBreak
      obtain ⟨read, blamed, fillers, hTokens, hAbout, hOther⟩ :=
        (hDeclaration.completable tokens).breaks hBreak
      refine ⟨read, blamed, fillers, hTokens, hAbout, fun hEof' hFill hRest => ?_⟩
      obtain ⟨events', _, h, hEvents⟩ := hOther hEof' hFill hRest
      exact ⟨events', (), by rw [hTold, if_neg (hName h), h], hEvents⟩

omit hEof in
/-- A value that starts with a word is always read, in one piece or in three. -/
theorem told_compoundValue (eof : Token) (tokens : List Token) :
    ∃ text rest, compoundValue.told eof tokens = ([], .ok (text, rest)) := by
  have hTold : ∀ {c : Bool} {x y : Recorder Text} {rest rest' : List Token} {a b : Text},
      x.told eof tokens.tail = ([], .ok (a, rest)) → y.told eof tokens.tail = ([], .ok (b, rest')) →
      ∃ text rest, (if c then x else y).told eof tokens.tail = ([], .ok (text, rest)) := by
    intro c x y rest rest' a b hx hy
    cases c with
    | true => exact ⟨a, rest, hx⟩
    | false => exact ⟨b, rest', hy⟩
  exact hTold rfl rfl

omit hEof in
/-- An option breaks off before a fault, and otherwise reports one event where it stands. -/
theorem told_option (eof t : Token) (tokens : List Token) :
    (∃ e, option.told eof (t :: tokens) = ([], .error e) ∧ e.About (tokens.headD eof)) ∨
      ∃ event rest, option.told eof (t :: tokens) = ([(event, t.pos)], .ok ((), rest)) := by
  have hValue : ∀ {value : Recorder Text} {text : Text} {rest : List Token},
      value.told eof tokens = ([], .ok (text, rest)) →
      ∃ event rest, (do
        emit (.addSwitch { name := t.raw, value := ← value, hasValue := true }) t.pos :
          Recorder Unit).told eof tokens = ([(event, t.pos)], .ok ((), rest)) := by
    intro value text rest h
    exact ⟨_, rest, told_bind_of_ok _ h⟩
  obtain ⟨text, rest, hCompound⟩ := told_compoundValue eof tokens
  rw [option, told_advance_bind, told_note_bind, told_current_bind, List.headD_cons, List.tail_cons]
  cases hKind : (tokens.headD eof).kind with
  | string => exact Or.inr (hValue rfl)
  | name | integer | double => exact Or.inr (hValue hCompound)
  | illegal => exact Or.inl ⟨_, rfl, SyntaxError.about_illegal _⟩
  | _ =>
      refine Or.inr ?_
      dsimp only
      rw [told_following_bind]
      split
      · exact hValue hCompound
      · exact ⟨_, tokens, rfl⟩

/-- An option breaks off only before a fault, and is complete without a value. -/
theorem mendable_option (ht : t.kind = .option) : (option.behind [t]).Mendable Clear [] eof := by
  have hBare : ∀ {eof : Token} {rest : List Token}, Clear eof rest →
      ∃ events, option.told eof (t :: rest) = (events, .ok ((), rest)) := by
    intro eof rest hRest
    have hTakes : (Spelling.setting t.value none).Takes (t :: rest) rest := by
      rw [Spelling.setting, Spelling.takes_next]
      exact ⟨rest, Spelling.takes_one.mpr ⟨t, rfl, ht, rfl⟩, Spelling.takes_empty.mpr rfl⟩
    obtain ⟨events, hTold, -⟩ := told_of_reads (option_complete (u := ()) hTakes hRest)
    exact ⟨events, hTold⟩
  -- What it reports is told by its spelling, and by where it stands.
  have hOne : ∀ {eof : Token} {tokens rest : List Token} {events : List (Event × Pos)} {own : Event},
      option.told eof (t :: tokens) = (events, .ok ((), rest)) → events.map Prod.fst = [own] →
      events = [(own, t.pos)] := by
    intro eof tokens rest events own hTold hOwn
    rcases told_option eof t tokens with ⟨e, hError, -⟩ | ⟨event, _, hOk⟩
    · cases hError.symm.trans hTold
    · cases hOk.symm.trans hTold
      obtain rfl : event = own := List.singleton_inj.mp hOwn
      rfl
  refine ⟨fun eof more rest _ hFill hRest => ?_, fun tokens => ⟨?_, ?_⟩⟩
  · rw [Filler.fill_nil.mp hFill]
    obtain ⟨events, hTold⟩ := hBare hRest
    exact ⟨events, (), hTold⟩
  · intro events _ rest hRead
    have hRead : option.told eof (t :: tokens) = (events, .ok ((), rest)) := hRead
    have hStart : ((t :: tokens).headD eof).kind = .option := ht
    obtain ⟨name, v, ⟨used, hUsed, hSpelled⟩, hOwn⟩ := option_sound hEof hStart (reads_of_told hRead)
    cases used with
    | nil =>
        obtain ⟨_, _, hNil, ⟨_, rfl, -⟩, -⟩ := hSpelled
        cases hNil
    | cons t' read =>
        obtain ⟨rfl, rfl⟩ := List.cons.inj hUsed
        refine ⟨read, rfl, fun _ hRest => ?_⟩
        obtain ⟨events', hTold, hOwn'⟩ :=
          told_of_reads (option_complete (u := ()) ⟨t :: read, rfl, hSpelled⟩ hRest)
        rw [hOne hRead hOwn, ← hOne hTold hOwn']
        exact hTold
  · intro events e hBreak
    rcases told_option eof t tokens with ⟨e', hTold, hAbout⟩ | ⟨event, rest, hTold⟩
    · cases hTold.symm.trans hBreak
      refine ⟨[], tokens, [], rfl, hAbout, fun {eof' more rest'} _ hFill hRest => ?_⟩
      rw [Filler.fill_nil.mp hFill]
      obtain ⟨events, hTold⟩ := hBare hRest
      exact ⟨events, (), hTold, List.nil_prefix⟩
    · cases hTold.symm.trans hBreak

end constructs

end Reader

end Runsheet

import Runsheet.Proofs.Script.Exactness
import Runsheet.Proofs.Script.Relocation

/-! Constructs that break off. Where a step ends in an error, the tokens that it had read before the
one it blames can be completed: with a few further tokens in place of the blamed one the step
succeeds, and what it had reported stands. What was read does not change by what comes behind it,
unless that goes on with the last construct. -/
namespace Runsheet

/-- The tokens that complete a construct. -/
inductive Filler
  | colon
  | semicolon
  | name
  | default
  deriving DecidableEq, Repr

instance : Nonempty Token := ⟨⟨.eof, none, .start, false, none⟩⟩

namespace Filler

def kind : Filler → TokenKind
  | colon => .colon
  | semicolon => .semicolon
  | name => .name
  | default => .keyword .default

def Fill (fillers : List Filler) (tokens : List Token) : Prop :=
  tokens.map Token.kind = fillers.map kind

variable {f : Filler} {fs gs : List Filler} {tokens : List Token}

@[simp] theorem fill_nil : Fill [] tokens ↔ tokens = [] := List.map_eq_nil_iff

/-- Fillers are matched one by one: the first token has the kind of the first filler, and the others
fill the rest. -/
@[simp] theorem fill_cons :
    Fill (f :: fs) tokens ↔ ∃ t more, tokens = t :: more ∧ t.kind = f.kind ∧ Fill fs more :=
  List.map_eq_cons_iff

/-- Fillers in two parts are filled by two stretches of tokens, one behind the other. -/
theorem fill_append :
    Fill (fs ++ gs) tokens ↔ ∃ own more, tokens = own ++ more ∧ Fill fs own ∧ Fill gs more := by
  rw [Fill, List.map_append]
  exact List.map_eq_append_iff

/-- There are such tokens at any place. -/
theorem exists_fill (fillers : List Filler) (position : Position) :
    ∃ eof more, eof.kind = .eof ∧ Fill fillers more ∧
      (more.headD eof).pos = ⟨position.line, position.column⟩ := by
  refine ⟨⟨.eof, none, position, false, none⟩,
    fillers.map fun f => ⟨f.kind, none, position, false, none⟩, rfl, ?_, ?_⟩
  · rw [Fill, List.map_map]
    rfl
  · cases fillers <;> rfl

end Filler

namespace SyntaxError

/-- The error points to the token and shows it. -/
structure About (e : SyntaxError) (t : Token) : Prop where
  pos : e.pos = t.pos
  offset : e.offset = t.position.offset
  got : e.got = t.kind
  gotText : e.gotText = t.raw

theorem about_illegal (t : Token) : (illegal t).About t := ⟨rfl, rfl, rfl, rfl⟩

/-- An error about an unexpected token bears its place, kind and text, also if it is told as one
that could not be scanned. -/
theorem about_unexpected (t : Token) (context : Construct) (expected : List TokenKind) :
    (SyntaxError.unexpected t context expected).About t := by
  rw [SyntaxError.unexpected]
  split
  · exact about_illegal t
  · exact ⟨rfl, rfl, rfl, rfl⟩

end SyntaxError

namespace Reader

open Filler (Fill)

variable {α β : Type} {eof t : Token} {tokens rest more : List Token}
  {events : List (Event × Pos)} {e : SyntaxError} {context : Construct}

/-- The events of a step with their places, and how it ends. -/
def told (x : Recorder α) (eof : Token) (tokens : List Token) :
    List (Event × Pos) × Except SyntaxError (α × List Token) :=
  (located (x eof tokens).emitted, (x eof tokens).outcome)

/-- The step when some tokens stand before all others. -/
def behind (front : List Token) (x : Recorder α) : Recorder α := fun eof tokens => x eof (front ++ tokens)

section told

variable {x : Recorder α} {f : α → Recorder β} {a : α} {b : β}

theorem told_of_eq {emitted : List Emission} {outcome : Except SyntaxError (α × List Token)}
    (h : x eof tokens = ⟨emitted, outcome⟩) : x.told eof tokens = (located emitted, outcome) := by
  rw [told, h]

/-- What a step tells determines what it does, up to trace records, of which nothing is told. -/
theorem exists_of_told {outcome : Except SyntaxError (α × List Token)}
    (h : x.told eof tokens = (events, outcome)) :
    ∃ emitted, x eof tokens = ⟨emitted, outcome⟩ ∧ located emitted = events := by
  obtain ⟨rfl, rfl⟩ := Prod.mk.inj h
  exact ⟨_, rfl, rfl⟩

theorem map_located (emitted : List Emission) : (located emitted).map Prod.fst = heard emitted :=
  Parse.events_eq_heard ⟨emitted, none⟩

/-- A step that tells of a value reads what it takes, with the same events but without their places.
-/
theorem reads_of_told (h : x.told eof tokens = (events, .ok (a, rest))) :
    x.Reads eof tokens (events.map Prod.fst) a rest := by
  obtain ⟨emitted, hRead, rfl⟩ := exists_of_told h
  exact ⟨emitted, hRead, (map_located emitted).symm⟩

/-- Conversely a step that reads something tells of the same events, each at some place. -/
theorem told_of_reads {own : List Event} (h : x.Reads eof tokens own a rest) :
    ∃ events, x.told eof tokens = (events, .ok (a, rest)) ∧ events.map Prod.fst = own := by
  obtain ⟨emitted, hRead, rfl⟩ := h
  exact ⟨_, told_of_eq hRead, map_located emitted⟩

theorem told_of_silent (h : x.Reads eof tokens [] a rest) :
    x.told eof tokens = ([], .ok (a, rest)) := by
  obtain ⟨events, hTold, hEvents⟩ := told_of_reads h
  rw [hTold, List.map_eq_nil_iff.mp hEvents]

/-- Two steps tell of the events of the first and then of what the second tells about the tokens
left. -/
theorem told_bind_of_ok (f : α → Recorder β) (h : x.told eof tokens = (events, .ok (a, rest))) :
    (x >>= f).told eof tokens =
      (events ++ ((f a).told eof rest).1, ((f a).told eof rest).2) := by
  obtain ⟨emitted, hRead, rfl⟩ := exists_of_told h
  rw [told, bind_eq, hRead]
  exact Prod.ext (located_append _ _) rfl

/-- An error in the first step ends both, and the events told of by then stay. -/
theorem told_bind_of_error (f : α → Recorder β) (h : x.told eof tokens = (events, .error e)) :
    (x >>= f).told eof tokens = (events, .error e) := by
  obtain ⟨emitted, hRead, rfl⟩ := exists_of_told h
  rw [told, bind_eq, hRead]

/-- Two steps that come to a value have both come to one, and the tokens in between can be named. -/
theorem told_bind_eq_ok (h : (x >>= f).told eof tokens = (events, .ok (b, rest))) :
    ∃ first a middle second, x.told eof tokens = (first, .ok (a, middle)) ∧
      (f a).told eof middle = (second, .ok (b, rest)) ∧ events = first ++ second := by
  rcases hFirst : x.told eof tokens with ⟨first, e | ⟨a, middle⟩⟩
  · rw [told_bind_of_error f hFirst] at h
    cases h
  · rw [told_bind_of_ok f hFirst] at h
    obtain ⟨rfl, hSecond⟩ := Prod.mk.inj h
    exact ⟨first, a, middle, _, rfl, Prod.ext rfl hSecond, rfl⟩

/-- An error of two steps is one of the first, or one of the second after the first came to a value.
-/
theorem told_bind_eq_error (h : (x >>= f).told eof tokens = (events, .error e)) :
    x.told eof tokens = (events, .error e) ∨
      ∃ first a middle second, x.told eof tokens = (first, .ok (a, middle)) ∧
        (f a).told eof middle = (second, .error e) ∧ events = first ++ second := by
  rcases hFirst : x.told eof tokens with ⟨first, e | ⟨a, middle⟩⟩
  · rw [told_bind_of_error f hFirst] at h
    cases h
    exact Or.inl rfl
  · rw [told_bind_of_ok f hFirst] at h
    obtain ⟨rfl, hSecond⟩ := Prod.mk.inj h
    exact Or.inr ⟨first, a, middle, _, rfl, Prod.ext rfl hSecond, rfl⟩

/-- Changing the value of a step changes nothing about its tokens and events. -/
theorem told_map_eq_ok {g : α → β} :
    (x >>= fun a => pure (g a)).told eof tokens = (events, .ok (b, rest)) ↔
      ∃ a, x.told eof tokens = (events, .ok (a, rest)) ∧ b = g a := by
  constructor
  · intro h
    obtain ⟨first, a, _, _, hFirst, hPure, rfl⟩ := told_bind_eq_ok h
    cases hPure
    exact ⟨a, hFirst.trans (Prod.ext (List.append_nil first).symm rfl), rfl⟩
  · rintro ⟨a, h, rfl⟩
    rw [told_bind_of_ok _ h]
    exact Prod.ext (List.append_nil _) rfl

theorem told_map_eq_error {g : α → β} :
    (x >>= fun a => pure (g a)).told eof tokens = (events, .error e) ↔
      x.told eof tokens = (events, .error e) := by
  constructor
  · intro h
    rcases told_bind_eq_error h with h | ⟨_, _, _, _, _, hPure, _⟩
    · exact h
    · cases hPure
  · exact told_bind_of_error _

theorem told_current_bind {f : Token → Recorder β} :
    (current >>= f).told eof tokens = (f (tokens.headD eof)).told eof tokens :=
  rfl

theorem told_following_bind {f : Token → Recorder β} :
    (following >>= f).told eof tokens = (f (tokens.tail.headD eof)).told eof tokens :=
  rfl

theorem told_advance_bind {f : Token → Recorder β} :
    (advance >>= f).told eof tokens = (f (tokens.headD eof)).told eof tokens.tail :=
  rfl

theorem told_note_bind {record : LogRecord} {f : Unit → Recorder β} :
    (note record >>= f).told eof tokens = (f ()).told eof tokens :=
  rfl

theorem told_emit (e : Event) (pos : Pos) :
    (emit e pos).told eof tokens = ([(e, pos)], .ok ((), tokens)) := rfl

/-- A required token is taken if it is next; otherwise the error is about the token that stands
there. -/
theorem told_expect (kind : TokenKind) : (expect kind context).told eof tokens =
    if (tokens.headD eof).kind = kind then ([], .ok (tokens.headD eof, tokens.tail))
    else ([], .error (.unexpected (tokens.headD eof) context [kind])) := by
  change (if (tokens.headD eof).kind = kind then advance else unexpected context [kind]).told eof
    tokens = _
  split <;> rfl

/-- If reading came past a required token, it was there. -/
theorem headD_kind_of_expect {kind : TokenKind} {f : Token → Recorder β}
    (h : (expect kind context >>= f).told eof tokens = (events, .ok (b, rest))) :
    (tokens.headD eof).kind = kind := by
  obtain ⟨_, _, _, _, hExpect, -⟩ := told_bind_eq_ok h
  rw [told_expect] at hExpect
  split at hExpect
  · assumption
  · cases hExpect

/-- An optional token is taken if it is next, and the rest is read with or without it. -/
theorem told_accept_bind {kind : TokenKind} {f : Bool → Recorder β} :
    (accept kind >>= f).told eof tokens =
      if (tokens.headD eof).kind = kind then (f true).told eof tokens.tail
      else (f false).told eof tokens := by
  rw [told, bind_accept]
  split <;> rfl

end told

abbrev Follow := Token → List Token → Prop

def anything : Follow := fun _ _ => True

def noneOf (kinds : List TokenKind) : Follow := fun eof tokens => (tokens.headD eof).kind ∉ kinds

section follow

variable {kinds kinds' : List TokenKind} {kind : TokenKind}

theorem noneOf.kind_ne (h : noneOf kinds eof tokens) (hKind : kind ∈ kinds) :
    (tokens.headD eof).kind ≠ kind :=
  fun hHead => h (hHead ▸ hKind)

theorem noneOf_of_kind (h : (tokens.headD eof).kind = kind) (hKind : kind ∉ kinds) :
    noneOf kinds eof tokens :=
  fun hHead => hKind (h ▸ hHead)

/-- Excluding more kinds than need be does no harm. -/
theorem noneOf.mono (h : noneOf kinds eof tokens) (hKinds : kinds' ⊆ kinds) :
    noneOf kinds' eof tokens :=
  fun hHead => h (hKinds hHead)

end follow

/-- The fillers are all that the step takes. -/
def Filled (F : Follow) (fillers : List Filler) (x : Recorder α) : Prop :=
  ∀ ⦃eof more rest⦄, eof.kind = .eof → Fill fillers more → F eof rest →
    ∃ events a, x.told eof (more ++ rest) = (events, .ok (a, rest))

/-- What the step makes of some tokens does not depend on what comes behind those it takes, and when
it breaks off before a token, it is completed by fillers in place of that one. -/
structure Completable (F : Follow) (eof : Token) (tokens : List Token) (x : Recorder α) : Prop where
  reads : ∀ {events a rest}, x.told eof tokens = (events, .ok (a, rest)) →
    ∃ read, tokens = read ++ rest ∧ ∀ {eof' rest'}, eof'.kind = .eof → F eof' rest' →
      x.told eof' (read ++ rest') = (events, .ok (a, rest'))
  breaks : ∀ {events e}, x.told eof tokens = (events, .error e) →
    ∃ read blamed fillers, tokens = read ++ blamed ∧ e.About (blamed.headD eof) ∧
      ∀ {eof' more rest'}, eof'.kind = .eof → Fill fillers more → F eof' rest' →
        ∃ events' a, x.told eof' (read ++ (more ++ rest')) = (events', .ok (a, rest')) ∧
          events <+: events'

/-- The step can be completed on all tokens, and by the fillers when there are none. -/
structure Mendable (F : Follow) (fillers : List Filler) (eof : Token) (x : Recorder α) : Prop where
  filled : x.Filled F fillers
  completable : ∀ tokens, x.Completable F eof tokens

section rules

variable {F G : Follow} {fs gs : List Filler} {x y : Recorder α} {f : α → Recorder β}

/-- Steps that tell the same of all tokens are filled by the same fillers. -/
theorem Filled.congr (h : ∀ {eof tokens}, eof.kind = .eof → x.told eof tokens = y.told eof tokens)
    (hy : y.Filled F fs) : x.Filled F fs := by
  intro eof more rest hEof hFill hRest
  rw [h hEof]
  exact hy hEof hFill hRest

/-- Being completable is likewise a matter of what is told, not of how the step is built. -/
theorem Completable.congr (hEof : eof.kind = .eof)
    (h : ∀ {eof tokens}, eof.kind = .eof → x.told eof tokens = y.told eof tokens)
    (hy : y.Completable F eof tokens) : x.Completable F eof tokens := by
  refine ⟨fun hRead => ?_, fun hBreak => ?_⟩
  · rw [h hEof] at hRead
    obtain ⟨read, hTokens, hOther⟩ := hy.reads hRead
    exact ⟨read, hTokens, fun hEof' hRest => (h hEof').trans (hOther hEof' hRest)⟩
  · rw [h hEof] at hBreak
    obtain ⟨read, blamed, fillers, hTokens, hAbout, hOther⟩ := hy.breaks hBreak
    refine ⟨read, blamed, fillers, hTokens, hAbout, fun hEof' hFill hRest => ?_⟩
    rw [h hEof']
    exact hOther hEof' hFill hRest

/-- A token that the step takes in any case. -/
theorem Completable.cons (hy : y.Completable F eof more)
    (h : ∀ {eof tokens}, x.told eof (t :: tokens) = y.told eof tokens) :
    x.Completable F eof (t :: more) := by
  refine ⟨fun hRead => ?_, fun hBreak => ?_⟩
  · rw [h] at hRead
    obtain ⟨read, rfl, hOther⟩ := hy.reads hRead
    exact ⟨t :: read, rfl, fun hEof' hRest => h.trans (hOther hEof' hRest)⟩
  · rw [h] at hBreak
    obtain ⟨read, blamed, fillers, rfl, hAbout, hOther⟩ := hy.breaks hBreak
    refine ⟨t :: read, blamed, fillers, rfl, hAbout, fun hEof' hFill hRest => ?_⟩
    rw [List.cons_append, h]
    exact hOther hEof' hFill hRest

theorem Mendable.congr (hy : y.Mendable F fs eof) (hEof : eof.kind = .eof)
    (h : ∀ {eof tokens}, eof.kind = .eof → x.told eof tokens = y.told eof tokens) :
    x.Mendable F fs eof :=
  ⟨hy.filled.congr h, fun tokens => (hy.completable tokens).congr hEof h⟩

/-- A weaker demand on what comes behind can be met wherever a stronger one can. -/
theorem Mendable.mono (h : ∀ {eof rest}, eof.kind = .eof → G eof rest → F eof rest)
    (hx : x.Mendable F fs eof) : x.Mendable G fs eof := by
  refine ⟨fun _ _ _ hEof hFill hRest => hx.filled hEof hFill (h hEof hRest), fun tokens => ⟨?_, ?_⟩⟩
  · intro events a rest hRead
    obtain ⟨read, hTokens, hOther⟩ := (hx.completable tokens).reads hRead
    exact ⟨read, hTokens, fun hEof' hRest => hOther hEof' (h hEof' hRest)⟩
  · intro events e hBreak
    obtain ⟨read, blamed, fillers, hTokens, hAbout, hOther⟩ := (hx.completable tokens).breaks hBreak
    exact ⟨read, blamed, fillers, hTokens, hAbout,
      fun hEof' hFill hRest => hOther hEof' hFill (h hEof' hRest)⟩

/-- What the second step takes may come behind the first. -/
def Links (F G : Follow) (f : α → Recorder β) : Prop :=
  ∀ ⦃a eof tokens events b rest⦄, eof.kind = .eof →
    (f a).told eof tokens = (events, .ok (b, rest)) → G eof rest → F eof tokens

theorem links_anything : Links anything G f := fun _ _ _ _ _ _ _ _ _ => trivial

/-- A required token of another kind may come behind a step that must not be followed by some kinds.
-/
theorem links_expect {kinds : List TokenKind} {kind : TokenKind} {g : α → Token → Recorder β}
    (hKind : kind ∉ kinds) : Links (noneOf kinds) G fun a => expect kind context >>= g a := by
  intro a eof tokens events b rest _ h _
  exact noneOf_of_kind (headD_kind_of_expect h) hKind

/-- A first value is enough to see that the fillers of the second step may come behind the first. -/
theorem Links.fill [Nonempty α] (hLinks : Links F G f) (hf : ∀ a, (f a).Filled G gs)
    (hEof : eof.kind = .eof) (hFill : Fill gs more) (hRest : G eof rest) : F eof (more ++ rest) := by
  obtain ⟨a⟩ := ‹Nonempty α›
  obtain ⟨events, b, hSecond⟩ := hf a hEof hFill hRest
  exact hLinks hEof hSecond hRest

/-- The fillers of two steps stand one behind the other, provided that those of the second may come
behind the first. -/
theorem Filled.bind [Nonempty α] (hx : x.Filled F fs) (hf : ∀ a, (f a).Filled G gs)
    (hLinks : Links F G f) : (x >>= f).Filled G (fs ++ gs) := by
  intro eof more rest hEof hFill hRest
  obtain ⟨own, more, rfl, hOwn, hMore⟩ := Filler.fill_append.mp hFill
  obtain ⟨first, a, hFirst⟩ := hx hEof hOwn (hLinks.fill hf hEof hMore hRest)
  obtain ⟨second, b, hSecond⟩ := hf a hEof hMore hRest
  rw [List.append_assoc, told_bind_of_ok f hFirst, hSecond]
  exact ⟨_, _, rfl⟩

/-- One step after another breaks off in the first, which is completed and then the second filled, or
in the second. -/
theorem Completable.bind [Nonempty α] (hx : x.Completable F eof tokens)
    (hf : ∀ {events a rest}, x.told eof tokens = (events, .ok (a, rest)) →
      (f a).Completable G eof rest)
    (hFilled : ∀ a, (f a).Filled G gs) (hLinks : Links F G f) :
    (x >>= f).Completable G eof tokens := by
  refine ⟨fun hRead => ?_, fun hBreak => ?_⟩
  · obtain ⟨first, a, middle, second, hFirst, hSecond, rfl⟩ := told_bind_eq_ok hRead
    obtain ⟨read, rfl, hOther⟩ := hx.reads hFirst
    obtain ⟨read', rfl, hOther'⟩ := (hf hFirst).reads hSecond
    refine ⟨read ++ read', (List.append_assoc ..).symm, fun hEof' hRest => ?_⟩
    have hMore := hOther' hEof' hRest
    rw [List.append_assoc, told_bind_of_ok f (hOther hEof' (hLinks hEof' hMore hRest)), hMore]
  · rcases told_bind_eq_error hBreak with hFirst | ⟨first, a, middle, second, hFirst, hSecond, rfl⟩
    · obtain ⟨read, blamed, fillers, rfl, hAbout, hOther⟩ := hx.breaks hFirst
      refine ⟨read, blamed, fillers ++ gs, rfl, hAbout, fun {eof' more rest'} hEof' hFill hRest => ?_⟩
      obtain ⟨own, more, rfl, hOwn, hMore⟩ := Filler.fill_append.mp hFill
      obtain ⟨events', a, hMended, hEvents⟩ :=
        hOther hEof' hOwn (hLinks.fill hFilled hEof' hMore hRest)
      obtain ⟨second, b, hSecond⟩ := hFilled a hEof' hMore hRest
      rw [List.append_assoc own, told_bind_of_ok f hMended, hSecond]
      exact ⟨_, _, rfl, hEvents.trans (List.prefix_append _ _)⟩
    · obtain ⟨read, rfl, hOther⟩ := hx.reads hFirst
      obtain ⟨read', blamed, fillers, rfl, hAbout, hOther'⟩ := (hf hFirst).breaks hSecond
      refine ⟨read ++ read', blamed, fillers, (List.append_assoc ..).symm, hAbout,
        fun {eof' more rest'} hEof' hFill hRest => ?_⟩
      obtain ⟨events', b, hMended, hEvents⟩ := hOther' hEof' hFill hRest
      rw [List.append_assoc, told_bind_of_ok f (hOther hEof' (hLinks hEof' hMended hRest)), hMended]
      exact ⟨_, _, rfl, (List.prefix_append_right_inj first).mpr hEvents⟩

/-- The key to all constructs: an error in the first step is mended there and the second filled in,
one in the second is mended behind what the first took. -/
theorem Mendable.bind [Nonempty α] (hx : x.Mendable F fs eof) (hf : ∀ a, (f a).Mendable G gs eof)
    (hLinks : Links F G f) : (x >>= f).Mendable G (fs ++ gs) eof :=
  ⟨hx.filled.bind (fun a => (hf a).filled) hLinks, fun tokens =>
    (hx.completable tokens).bind (fun _ => (hf _).completable _) (fun a => (hf a).filled) hLinks⟩

/-- A step that looks at no token. -/
theorem mendable_of_told {a : α}
    (h : ∀ {eof tokens}, x.told eof tokens = (events, .ok (a, tokens))) :
    x.Mendable anything [] eof := by
  refine ⟨fun eof more rest _ hFill _ => ?_, fun tokens => ⟨fun hRead => ?_, fun hBreak => ?_⟩⟩
  · rw [Filler.fill_nil.mp hFill]
    exact ⟨events, a, h⟩
  · cases h.symm.trans hRead
    exact ⟨[], rfl, fun _ _ => h⟩
  · cases h.symm.trans hBreak

/-- A step that takes nothing needs no mending. -/
theorem mendable_pure (a : α) : (pure a : Recorder α).Mendable anything [] eof := mendable_of_told rfl

theorem mendable_emit (e : Event) (pos : Pos) : (emit e pos).Mendable anything [] eof :=
  mendable_of_told (told_emit e pos)

/-- Where a required token is missing, one of its kind put in its place completes the step. -/
theorem mendable_expect (hEof : eof.kind = .eof) (filler : Filler) :
    (expect filler.kind context).Mendable anything [filler] eof := by
  have hTaken : ∀ {eof t : Token} {rest : List Token}, t.kind = filler.kind →
      (expect filler.kind context).told eof (t :: rest) = ([], .ok (t, rest)) := by
    intro eof t rest ht
    rw [told_expect, List.headD_cons, if_pos ht, List.tail_cons]
  refine ⟨fun eof more rest _ hFill _ => ?_, fun tokens => ⟨fun hRead => ?_, fun hBreak => ?_⟩⟩
  · obtain ⟨t, _, rfl, ht, hFill⟩ := Filler.fill_cons.mp hFill
    rw [Filler.fill_nil.mp hFill]
    exact ⟨_, _, hTaken ht⟩
  · rw [told_expect] at hRead
    split at hRead
    · rename_i hKind
      have hOther : filler.kind ≠ .eof := by cases filler <;> decide
      obtain ⟨t, tail, rfl, ht⟩ := cons_of_headD_kind hEof hKind hOther
      cases hRead
      exact ⟨[t], rfl, fun _ _ => hTaken ht⟩
    · cases hRead
  · rw [told_expect] at hBreak
    split at hBreak
    · cases hBreak
    · cases hBreak
      refine ⟨[], tokens, [filler], rfl, SyntaxError.about_unexpected _ _ _,
        fun {eof' more rest'} _ hFill _ => ?_⟩
      obtain ⟨t, _, rfl, ht, hFill⟩ := Filler.fill_cons.mp hFill
      rw [Filler.fill_nil.mp hFill]
      exact ⟨_, _, hTaken ht, List.nil_prefix⟩

end rules

end Reader

end Runsheet

import Runsheet.Proofs.Engine.Invariant
import Runsheet.Proofs.Engine.Objection

/-! A suggestion can be followed: an event that is refused for a name is not refused for the same reason
with the suggested name in its place. The suggestions are taken from the very names that the failing
check looks through, in whatever state the calls so far have left. -/
namespace Runsheet

/-- The event with another name in place of the one that a diagnostic of a kind is about. -/
def Event.respelt (kind : DiagnosticKind) (name : Text) : Event → Event
  | .setDefault sort axis _ => .setDefault sort axis name
  | .beginCase _ => .beginCase name
  | .addAlternativeLabel _ => .addAlternativeLabel name
  | .select choice label =>
    if kind = .unknownChoiceInSelect then .select name label else .select choice name
  | e => e

/-- The name in question in the respelt event is the new one, for every kind of diagnostic that can
be about a name of the event. -/
theorem Event.nameFor_respelt {s : State} {kind : DiagnosticKind} {name : Text} {e : Event}
    (h : name ∈ s.known kind e) : (e.respelt kind name).nameFor kind = name := by
  cases e with
  | setDefault sort axis label => rfl
  | beginCase subject => rfl
  | addAlternativeLabel label => rfl
  | select choice label =>
      rw [respelt]
      split
      · rename_i hChoice
        rw [nameFor, if_pos hChoice]
      · rename_i hLabel
        rw [nameFor, if_neg hLabel]
  | _ => exact absurd h List.not_mem_nil

/-- Respelling changes a name and never the sort of an event. -/
theorem Event.respelt_ne_endScript {kind : DiagnosticKind} {name : Text} {e : Event}
    (h : e ≠ .endScript) : e.respelt kind name ≠ .endScript := by
  cases e with
  | select choice label =>
      rw [respelt]
      split <;> nofun
  | endScript => exact absurd rfl h
  | _ => nofun

namespace State

variable {config : Config} {s s' : State} {e : Event} {pos : Pos} {d : Diagnostic}

/-- Another name changes nothing about the names that are in question. -/
theorem known_respelt (s : State) (kind : DiagnosticKind) (name : Text) (e : Event) :
    s.known kind (e.respelt kind name) = s.known kind e := by
  cases e with
  | select choice label =>
      rw [Event.respelt]
      split
      · rename_i hChoice
        rw [known, known, if_pos hChoice, if_pos hChoice]
      · rfl
  | _ => rfl

/-- What the user is told is the failure itself, unless it is a broken contract in the words of an
internal error. -/
theorem diagnostic_of_step (h : (s.step config e pos).2 = some d) (hKind : d.kind ≠ .internalError) :
    (s.take config e pos).2 = some (.diagnostic d) := by
  obtain ⟨f, hTake, rfl⟩ := Option.map_eq_some_iff.mp h
  cases f with
  | violation v => exact absurd rfl hKind
  | diagnostic d => exact hTake

/-- After any calls, a call that is refused for a name and suggests another is not refused for the same
reason with the suggested name instead. -/
theorem suggestion_usable (config : Config) (calls : List Call) (e : Event) (pos : Pos)
    (d : Diagnostic) (hEvent : e ≠ .endScript)
    (hRefused : ((after config {} calls).step config e pos).2 = some d) (hKind : d.kind.IsOfName)
    (hSuggestion : d.suggestion ≠ []) :
    ∀ d', ((after config {} calls).step config (e.respelt d.kind d.suggestion) pos).2 = some d' →
      d'.kind ≠ d.kind := by
  intro d' hAgain hSame
  have hListed : d.kind ≠ .internalError := by
    intro hInternal
    rw [hInternal] at hKind
    exact absurd hKind (by decide)
  have hSound := sound_after config calls
  have hTake := diagnostic_of_step hRefused hListed
  have hTakeAgain := diagnostic_of_step hAgain (hSame ▸ hListed)
  have hRejects := (objection_of_take hSound hEvent (Prod.ext rfl hTake)).rejects hKind
  have hKnown : d.suggestion ∈ (after config {} calls).known d.kind e := by
    rw [hRejects.suggestion_eq] at hSuggestion ⊢
    exact Suggestion.closest_mem hSuggestion
  have hEventAgain : e.respelt d.kind d.suggestion ≠ .endScript :=
    Event.respelt_ne_endScript hEvent
  have hUnknown := (objection_of_take hSound hEventAgain (Prod.ext rfl hTakeAgain)).not_mem
    (hSame ▸ hKind)
  rw [hSame] at hUnknown
  rw [Event.nameFor_respelt hKnown, known_respelt] at hUnknown
  exact hUnknown hKnown

/-- An alternative in which a label stands already. -/
def labelled : List Call :=
  [.beginScript, .declare .choice "paper", .addLabel .choice "paper" "tall",
    .addLabel .choice "paper" "wide", .beginCase "paper", .beginAlternative,
    .addAlternativeLabel "tall"].map (·, Pos.none)

/-- The label that is suggested for a misspelt one is known, though it was used before. -/
theorem suggestion_usable_labelled :
    ((after {} {} labelled).step {} (.addAlternativeLabel "tal") .none).2 =
        some { kind := .unknownLabel, text := "label 'tal' is not a label of choice 'paper'",
               suggestion := "tall" } ∧
      ∀ d', ((after {} {} labelled).step {} (.addAlternativeLabel "tall") .none).2 = some d' →
        d'.kind ≠ .unknownLabel := by
  have hRefused : ((after {} {} labelled).step {} (.addAlternativeLabel "tal") .none).2 =
      some { kind := .unknownLabel, text := "label 'tal' is not a label of choice 'paper'",
             suggestion := "tall" } := by decide +kernel
  exact ⟨hRefused, suggestion_usable {} labelled (.addAlternativeLabel "tal") .none _ (by decide)
    hRefused (Or.inr (Or.inl rfl)) (by decide)⟩

end State

end Runsheet

import Runsheet.Proofs.Plan.File
import Runsheet.Proofs.Script.Meaning
import Runsheet.Proofs.Script.Spelling
import Runsheet.Proofs.Text.Utf8

/-! The texts of a script: what is spelled in UTF-8 has texts in UTF-8, and the commands of a script
hold no texts but its own and the sources it is run with. -/
namespace Runsheet

open Text

mutual

def Body.texts : Body → List Text
  | .nil => []
  | .option name value rest => name :: value.toList ++ rest.texts
  | .case subject alternatives rest => subject :: alternatives.texts ++ rest.texts

def Alternatives.texts : Alternatives → List Text
  | .last label labels body => label :: labels ++ body.texts
  | .cons label labels body rest => label :: labels ++ body.texts ++ rest.texts

end

def Statement.texts : Statement → List Text
  | .tool name | .source name | .every name => [name]
  | .axis _ name label labels default => name :: label :: labels ++ default.toList
  | .option name value => name :: value.toList
  | .case subject alternatives => subject :: alternatives.texts
  | .select choice label => [choice, label]

def Script.texts (script : List Statement) : List Text := script.flatMap Statement.texts

def AllUtf8 (ts : List Text) : Prop := ∀ t ∈ ts, t.isUtf8 = true

section utf8

variable {t : Text} {first second : List Text}

theorem allUtf8_nil : AllUtf8 [] := nofun

@[simp] theorem allUtf8_cons : AllUtf8 (t :: first) ↔ t.isUtf8 = true ∧ AllUtf8 first :=
  List.forall_mem_cons

@[simp] theorem allUtf8_append : AllUtf8 (first ++ second) ↔ AllUtf8 first ∧ AllUtf8 second :=
  List.forall_mem_append

end utf8

namespace Spelling

/-- Symbols that stand for texts in UTF-8 spell nothing but what has a property. -/
def Gives (p : Spelling) (P : Prop) : Prop :=
  ∀ symbols, p symbols → AllUtf8 (symbols.map Symbol.value) → P

section gives

variable {p q : Spelling} {P Q : Prop} {v : Text}

theorem Gives.imp (h : p.Gives P) (hPQ : P → Q) : p.Gives Q :=
  fun symbols hp hUtf8 => hPQ (h symbols hp hUtf8)

/-- What two spellings give is given by the one after the other. -/
theorem Gives.next (hp : p.Gives P) (hq : q.Gives Q) : (next p q).Gives (P ∧ Q) := by
  rintro _ ⟨own, more, rfl, hOwn, hMore⟩ hUtf8
  rw [List.map_append, allUtf8_append] at hUtf8
  exact ⟨hp own hOwn hUtf8.1, hq more hMore hUtf8.2⟩

theorem gives_true : p.Gives True := fun _ _ _ => trivial

/-- What stands first, when nothing is asked of what follows. -/
theorem Gives.first (hp : p.Gives P) : (Spelling.next p q).Gives P :=
  (hp.next gives_true).imp And.left

/-- What stands after something of which nothing is asked. -/
theorem Gives.after (hq : q.Gives Q) : (Spelling.next p q).Gives Q :=
  (gives_true.next hq).imp And.right

/-- A symbol that is laid out has a value in UTF-8, because the source that it stands in has. -/
theorem gives_one {r : Symbol → Prop} (h : ∀ s, r s → s.value = v) :
    (one r).Gives (v.isUtf8 = true) := by
  rintro _ ⟨s, rfl, hs⟩ hUtf8
  rw [← h s hs]
  exact hUtf8 s.value List.mem_cons_self

theorem gives_name : (name v).Gives (v.isUtf8 = true) := gives_one fun _ => And.right

theorem gives_strings : (strings v).Gives (v.isUtf8 = true) := by
  rintro symbols ⟨-, -, rfl⟩ hUtf8
  rw [List.flatMap_def]
  exact isUtf8_flatten hUtf8

theorem gives_word : (word v).Gives (v.isUtf8 = true) := by
  rintro symbols (h | h)
  · exact gives_name symbols h
  · exact gives_strings symbols h

theorem gives_label : (label v).Gives (v.isUtf8 = true) := by
  rintro symbols (h | h)
  · exact gives_one (fun _ => And.right) symbols h
  · exact gives_strings symbols h

/-- Each label is spelt by tokens of its own, all of them with values in UTF-8. -/
theorem gives_labels {more : List Text} : (labels v more).Gives (AllUtf8 (v :: more)) := by
  induction more generalizing v with
  | nil => exact gives_label.imp fun h => allUtf8_cons.mpr ⟨h, allUtf8_nil⟩
  | cons second more ih => exact (gives_label.next ih.after).imp allUtf8_cons.mpr

/-- The sign between two words is a single byte of ASCII. -/
theorem gives_pair : (pair v).Gives (v.isUtf8 = true) := by
  rintro _ ⟨x, sign, y, rfl, -, -, -, -, h⟩ hUtf8
  have hx := hUtf8 x.value (by simp)
  have hy := hUtf8 y.value (by simp)
  rcases h with ⟨-, rfl⟩ | ⟨-, rfl, -⟩ <;>
    exact isUtf8_append (isUtf8_append hx (by decide)) hy

/-- A compound value is put together of two words in UTF-8 and a sign. -/
theorem gives_value {v : Option Text} : (value v).Gives (AllUtf8 v.toList) := by
  cases v with
  | none => exact fun _ _ _ => allUtf8_nil
  | some v =>
      rintro symbols (h | h) hUtf8
      · exact allUtf8_cons.mpr ⟨gives_label symbols h hUtf8, allUtf8_nil⟩
      · exact allUtf8_cons.mpr ⟨gives_pair symbols h hUtf8, allUtf8_nil⟩

theorem gives_setting {v : Text} {w : Option Text} :
    (setting v w).Gives (AllUtf8 (v :: w.toList)) :=
  ((gives_one fun _ => And.right).next gives_value).imp allUtf8_cons.mpr

theorem gives_default {w : Option Text} : (default w).Gives (AllUtf8 w.toList) := by
  cases w with
  | none => exact fun _ _ _ => allUtf8_nil
  | some w => exact gives_label.after.after.after.imp fun h => allUtf8_cons.mpr ⟨h, allUtf8_nil⟩

/-- A case statement gives what its subject and its alternatives give. -/
theorem gives_case {ts : List Text} (h : p.Gives (AllUtf8 ts)) :
    (case v p).Gives (AllUtf8 (v :: ts)) :=
  (gives_name.next h.first.after).after.imp allUtf8_cons.mpr

theorem gives_alternative {more ts : List Text} (h : p.Gives (AllUtf8 ts)) :
    (alternative v more p).Gives (AllUtf8 (v :: more ++ ts)) :=
  (gives_labels.next h.first.after).imp allUtf8_append.mpr

end gives

end Spelling

mutual

/-- Every text in an alternative is in UTF-8 when it can be laid out. By induction on its elements.
-/
theorem Body.gives_spelling (b : Body) : b.spelling.Gives (AllUtf8 b.texts) := by
  cases b with
  | nil => exact fun _ _ _ => allUtf8_nil
  | option name value rest =>
      exact (Spelling.gives_setting.next rest.gives_spelling).imp allUtf8_append.mpr
  | case subject alternatives rest =>
      exact ((Spelling.gives_case alternatives.gives_spelling).next rest.gives_spelling).imp
        allUtf8_append.mpr

/-- The same for alternatives, which is proved together with it. -/
theorem Alternatives.gives_spelling (a : Alternatives) : a.spelling.Gives (AllUtf8 a.texts) := by
  cases a with
  | last label labels body => exact Spelling.gives_alternative body.gives_spelling
  | cons label labels body rest =>
      exact ((Spelling.gives_alternative body.gives_spelling).next rest.gives_spelling).imp
        allUtf8_append.mpr

end

theorem Statement.gives_spelling (s : Statement) : s.spelling.Gives (AllUtf8 s.texts) := by
  have hSingle : ∀ {v : Text}, v.isUtf8 = true → AllUtf8 [v] :=
    fun h => allUtf8_cons.mpr ⟨h, allUtf8_nil⟩
  cases s with
  | tool name | source name => exact Spelling.gives_word.first.after.after.imp hSingle
  | axis kind name label labels default =>
      refine (Spelling.gives_name.next
        (Spelling.gives_labels.next Spelling.gives_default.first).after).after.imp fun h => ?_
      exact allUtf8_cons.mpr ⟨h.1, allUtf8_append.mpr h.2⟩
  | option name value => exact Spelling.gives_setting
  | case subject alternatives => exact Spelling.gives_case alternatives.gives_spelling
  | select choice label =>
      refine (Spelling.gives_name.next Spelling.gives_label.first.after).after.imp fun h => ?_
      exact allUtf8_cons.mpr ⟨h.1, hSingle h.2⟩
  | every choice => exact Spelling.gives_name.first.after.imp hSingle

/-- Symbols that stand for texts in UTF-8 spell scripts of texts in UTF-8. -/
theorem gives_scriptSpelling (script : List Statement) :
    (scriptSpelling script).Gives (AllUtf8 (Script.texts script)) := by
  induction script with
  | nil => exact fun _ _ _ => allUtf8_nil
  | cons statement script ih => exact (statement.gives_spelling.next ih).imp allUtf8_append.mpr

theorem Switch.words_ofOption (name : Text) (value : Option Text) :
    (Switch.ofOption name value).words = name :: value.toList := by
  cases value <;> simp [ofOption, words, isBare]

section provenance

/-- The words of the options in a body are texts of the body. -/
theorem Body.words_switches_subset (b : Body) : Switch.allWords b.switches ⊆ b.texts := by
  induction b using Body.switches.induct with
  | case1 => exact List.nil_subset _
  | case2 name value rest ih =>
      rw [switches, Switch.allWords, List.flatMap_cons, Switch.words_ofOption, texts]
      exact List.append_subset.mpr
        ⟨List.subset_append_left _ _, List.subset_append_of_subset_right _ ih⟩
  | case3 subject alternatives rest ih =>
      exact List.subset_append_of_subset_right _ ih

mutual

/-- What the alternatives within a body add are texts of the body. -/
theorem Body.words_contributions_subset (b : Body) :
    ∀ c ∈ b.contributions, Switch.allWords c.switches ⊆ b.texts := by
  cases b with
  | nil => nofun
  | option name value rest =>
      intro c hc
      exact List.subset_append_of_subset_right _ (rest.words_contributions_subset c hc)
  | case subject alternatives rest =>
      intro c hc
      rcases List.mem_append.mp hc with hc | hc
      · have hInner := alternatives.words_contributions_subset subject c hc
        exact List.subset_append_of_subset_left _ (List.subset_cons_of_subset _ hInner)
      · exact List.subset_append_of_subset_right _ (rest.words_contributions_subset c hc)

/-- Alternatives contribute words of their options only, and never change them. -/
theorem Alternatives.words_contributions_subset (subject : Text) (a : Alternatives) :
    ∀ c ∈ a.contributions subject, Switch.allWords c.switches ⊆ a.texts := by
  cases a with
  | last label labels body =>
      intro c hc
      have hBody : Switch.allWords c.switches ⊆ body.texts := by
        rcases List.mem_append.mp hc with hc | hc
        · exact body.words_contributions_subset c hc
        · obtain rfl := List.mem_singleton.mp hc
          exact body.words_switches_subset
      exact List.subset_append_of_subset_right _ hBody
  | cons label labels body rest =>
      intro c hc
      rcases List.mem_append.mp hc with hc | hc
      · have hBody := body.words_contributions_subset c hc
        exact List.subset_append_of_subset_left _ (List.subset_append_of_subset_right _ hBody)
      rcases List.mem_cons.mp hc with rfl | hc
      · have hOwn := body.words_switches_subset
        exact List.subset_append_of_subset_left _ (List.subset_append_of_subset_right _ hOwn)
      · exact List.subset_append_of_subset_right _ (rest.words_contributions_subset subject c hc)

end

namespace Script

variable {config : Config} {script : List Statement} {tool source : Text}

theorem texts_subset {statement : Statement} (h : statement ∈ script) :
    statement.texts ⊆ texts script :=
  fun _ ht => List.mem_flatMap.mpr ⟨statement, h, ht⟩

/-- The tool of a plan is a text of the script. -/
theorem tools_subset : tools script ⊆ texts script := by
  intro t ht
  obtain ⟨statement, hStatement, hTool⟩ := List.mem_filterMap.mp ht
  refine texts_subset hStatement ?_
  cases statement <;> cases hTool
  exact List.mem_singleton_self t

theorem sources_subset : sources script ⊆ texts script := by
  intro t ht
  obtain ⟨statement, hStatement, hSource⟩ := List.mem_filterMap.mp ht
  refine texts_subset hStatement ?_
  cases statement <;> cases hSource
  exact List.mem_singleton_self t

/-- Of the texts of an axis only a default that is not there is no text of the script. -/
theorem axes_subset {kind : AxisKind} {axis : AxisDeclaration} (h : axis ∈ axes kind script) :
    axis.name ∈ texts script ∧ axis.labels ⊆ texts script ∧
      (axis.default = [] ∨ axis.default ∈ texts script) := by
  obtain ⟨statement, hStatement, hAxis⟩ := List.mem_filterMap.mp h
  have hTexts := texts_subset hStatement
  cases statement with
  | axis kind' name label labels default =>
      dsimp only at hAxis
      split at hAxis
      · cases hAxis
        refine ⟨hTexts List.mem_cons_self, fun t ht => hTexts ?_, ?_⟩
        · exact List.mem_cons_of_mem _ (List.mem_append_left _ ht)
        · cases default with
          | none => exact Or.inl rfl
          | some l => exact Or.inr (hTexts (by simp [Statement.texts]))
      · cases hAxis
  | _ => cases hAxis

/-- So are all words of the main block. -/
theorem words_main_subset : Switch.allWords (main script) ⊆ texts script := by
  intro t ht
  obtain ⟨switch, hSwitch, ht⟩ := List.mem_flatMap.mp ht
  obtain ⟨statement, hStatement, hOption⟩ := List.mem_filterMap.mp hSwitch
  refine texts_subset hStatement ?_
  cases statement <;> cases hOption
  rwa [Switch.words_ofOption] at ht

/-- So are the words that a label stands for, from whichever case statements they were gathered. -/
theorem words_block_subset (axis label : Text) :
    Switch.allWords (block script axis label) ⊆ texts script := by
  intro t ht
  obtain ⟨switch, hSwitch, ht⟩ := List.mem_flatMap.mp ht
  obtain ⟨c, hc, hSwitch⟩ := List.mem_flatMap.mp hSwitch
  have hWord : t ∈ Switch.allWords c.switches := by
    split at hSwitch
    · exact List.mem_flatMap.mpr ⟨switch, hSwitch, ht⟩
    · cases hSwitch
  obtain ⟨statement, hStatement, hc⟩ := List.mem_flatMap.mp hc
  refine texts_subset hStatement ?_
  cases statement with
  | case subject alternatives =>
      exact List.mem_cons_of_mem _ (alternatives.words_contributions_subset subject c hc hWord)
  | _ => cases hc

/-- And so are the words with which every command over a source starts. -/
theorem baseWords_subset : baseWords script source ⊆ texts script := by
  refine List.append_subset.mpr ⟨words_main_subset, fun t ht => ?_⟩
  obtain ⟨axis, -, ht⟩ := List.mem_flatMap.mp ht
  split at ht
  · exact words_block_subset axis.name source ht
  · cases ht

/-- The sources that a script is run over are its own or those that go with it. -/
theorem resolvedSources_subset {found : List Text}
    (h : resolvedSources config script = some found) : found ⊆ texts script ++ config.inputs := by
  unfold resolvedSources at h
  split at h
  · cases h
    exact List.subset_append_right _ _
  · split at h
    · cases h
      exact List.subset_append_of_subset_left _ sources_subset
    · split at h
      · rename_i axis hOne
        split at h
        · cases h
        · rename_i hDefault
          cases h
          obtain ⟨-, -, hNone | hText⟩ := axes_subset (hOne ▸ List.mem_singleton_self axis)
          · exact absurd hNone hDefault
          · exact List.cons_subset.mpr ⟨List.mem_append_left _ hText, List.nil_subset _⟩
      · cases h

/-- Every text in a command that is not empty stands in the script or is a source that goes with
it, if every selection is of a declared label. -/
theorem texts_commands_subset {found : List Text} {selections : List Selection} {c : Command}
    (hTool : (tools script).getLast? = some tool)
    (hFound : resolvedSources config script = some found)
    (hSelections : ∀ x ∈ selections, ∃ axis ∈ axes .choice script,
      axis.name = x.choice ∧ x.label ∈ axis.labels)
    (hc : c ∈ commands script tool found selections) :
    ∀ t ∈ c.texts, t = [] ∨ t ∈ texts script ++ config.inputs := by
  obtain ⟨source, hSource, hc⟩ := List.mem_flatMap.mp hc
  have hScript : ∀ t ∈ texts script, t = [] ∨ t ∈ texts script ++ config.inputs :=
    fun _ ht => Or.inr (List.mem_append_left _ ht)
  have hToolText := hScript tool (tools_subset (List.mem_of_getLast? hTool))
  have hSourceText : source = [] ∨ source ∈ texts script ++ config.inputs :=
    Or.inr (resolvedSources_subset hFound hSource)
  have hBase := fun t ht => hScript t (@baseWords_subset script source t ht)
  rw [commandsFor] at hc
  split at hc
  · obtain rfl := List.mem_singleton.mp hc
    simp only [Command.texts, List.forall_mem_cons, Option.getD_some, true_or, true_and]
    exact ⟨hToolText, hSourceText, hBase⟩
  · obtain ⟨x, hx, rfl⟩ := List.mem_map.mp hc
    obtain ⟨axis, hAxis, hChoice, hLabel⟩ := hSelections x hx
    obtain ⟨hName, hLabels, -⟩ := axes_subset hAxis
    have hBlock := fun t ht => hScript t (@words_block_subset script x.choice x.label t ht)
    simp only [Command.texts, List.forall_mem_cons, Option.getD_some]
    exact ⟨hToolText, hSourceText, hScript x.choice (hChoice ▸ hName),
      hScript x.label (hLabels hLabel), List.forall_mem_append.mpr ⟨hBase, hBlock⟩⟩

end Script

end provenance

end Runsheet

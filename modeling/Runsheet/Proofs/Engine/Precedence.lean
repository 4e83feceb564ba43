import Runsheet.Proofs.Engine.Order
import Runsheet.Proofs.Script.Exactness
import Runsheet.Request

/-! Who decides what is selected. The command line comes before the settings, and both come before
the script: the labels of a choice are told from the requests of the first of them that names it, and
nothing else in a run has a say in them. -/
namespace Runsheet

namespace Directive

def Parsed (texts : List Text) (ds : List Directive) : Prop :=
  List.Forall₂ (fun t d => Directive.parse t = .ok d) texts ds

/-- The directives that name a choice. -/
def naming (choice : Text) (ds : List Directive) : List Directive := ds.filter (·.choice == choice)

/-- The labels that directives for a choice ask for, each once, given all labels of the choice. -/
def picks (labels : List Text) (ds : List Directive) : List Text :=
  (ds.flatMap fun d => if isAllLabels d.label then labels else [d.label]).eraseDups

variable {complain : Text → Complaint} {texts settings flags : List Text}
  {ds directives fromSettings fromFlags : List Directive} {choice : Text}

/-- Directives that are read all together have each been read from the text at the same place. -/
theorem parseAll_eq_ok (h : parseAll complain texts = .ok ds) : Parsed texts ds := by
  induction texts generalizing ds with
  | nil =>
      cases h
      exact .nil
  | cons t texts ih =>
      rw [parseAll] at h
      split at h
      · cases h
      · rename_i d hFirst
        cases hRest : parseAll complain texts with
        | error c =>
            rw [hRest] at h
            cases h
        | ok rest =>
            rw [hRest] at h
            cases h
            exact .cons hFirst (ih hRest)

/-- Texts are read in one way. -/
theorem Parsed.unique {ds' : List Directive} (h : Parsed texts ds) (h' : Parsed texts ds') :
    ds = ds' := by
  induction h generalizing ds' with
  | nil =>
      cases h'
      rfl
  | cons hFirst _ ih =>
      cases h' with
      | cons hFirst' hRest' =>
          rw [hFirst] at hFirst'
          rw [Except.ok.inj hFirst', ih hRest']

/-- The entries of the settings whose choice no flag names, and then the flags. -/
theorem combine_eq_ok (h : combine settings flags = .ok directives) :
    ∃ fromSettings fromFlags, Parsed settings fromSettings ∧ Parsed flags fromFlags ∧
      directives = fromSettings.filter (fun d => d.choice ∉ fromFlags.map Directive.choice) ++
        fromFlags := by
  rw [combine] at h
  split at h
  · cases h
  · rename_i fromFlags hFlags
    split at h
    · cases h
    · rename_i fromSettings hSettings
      cases h
      refine ⟨fromSettings, fromFlags, parseAll_eq_ok hSettings, parseAll_eq_ok hFlags, ?_⟩
      have hNamed : ∀ d ∈ fromSettings, (!fromFlags.any (·.choice == d.choice)) =
          decide (d.choice ∉ fromFlags.map Directive.choice) := by
        intro d _
        rw [decide_not, Bool.not_inj_iff, Bool.eq_iff_iff]
        simp
      rw [List.filter_congr hNamed]

/-- Of directives in two parts, those that name a choice are those of the first part and then those
of the second. -/
theorem naming_append (first second : List Directive) :
    naming choice (first ++ second) = naming choice first ++ naming choice second :=
  List.filter_append ..

theorem naming_eq_nil_iff : naming choice ds = [] ↔ choice ∉ ds.map Directive.choice := by
  simp [naming, List.filter_eq_nil_iff]

/-- Among the directives in force only the flags name a choice that a flag names. -/
theorem naming_of_flag (h : choice ∈ fromFlags.map Directive.choice) :
    naming choice (fromSettings.filter (fun d => d.choice ∉ fromFlags.map Directive.choice) ++
      fromFlags) = naming choice fromFlags := by
  rw [naming_append, naming, List.filter_filter, List.filter_eq_nil_iff.mpr, List.nil_append]
  rintro d - hBoth
  obtain ⟨hSame, hFree⟩ := Bool.and_eq_true_iff.mp hBoth
  rw [beq_iff_eq.mp hSame, decide_eq_true_iff] at hFree
  exact hFree h

/-- Only the settings name any other choice. -/
theorem naming_of_setting (h : choice ∉ fromFlags.map Directive.choice) :
    naming choice (fromSettings.filter (fun d => d.choice ∉ fromFlags.map Directive.choice) ++
      fromFlags) = naming choice fromSettings := by
  rw [naming_append, naming_eq_nil_iff.mpr h, List.append_nil, naming, List.filter_filter, naming]
  refine List.filter_congr fun d _ => ?_
  by_cases hSame : d.choice = choice
  · simp [hSame, h]
  · simp [hSame]

end Directive

namespace State

/-- The labels of a choice that are selected, in order. -/
def labelsSelected (s : State) (choice : Text) : List Text :=
  (s.selections.filter (·.choice == choice)).map Selection.label

end State

namespace Script

variable {directives : List Directive} {script : List Statement} {choice : Text}

/-- The requests of directives for a choice. -/
theorem filter_expansion (script : List Statement) (ds : List Directive) (choice : Text) :
    (ds.flatMap (expansion script)).filter (·.choice == choice) =
      ((Directive.naming choice ds).flatMap fun d =>
        if isAllLabels d.label then labelsOf script choice else [d.label]).map
          (Selection.mk choice) := by
  induction ds with
  | nil => rfl
  | cons d ds ih =>
      rw [List.flatMap_cons, List.filter_append, ih]
      by_cases hSame : d.choice = choice
      · have hAll : (expansion script d).filter (·.choice == choice) = expansion script d := by
          rw [List.filter_eq_self]
          intro x hx
          obtain ⟨l, -, rfl⟩ := List.mem_map.mp hx
          exact beq_iff_eq.mpr hSame
        have hFirst : Directive.naming choice (d :: ds) = d :: Directive.naming choice ds :=
          List.filter_cons_of_pos (beq_iff_eq.mpr hSame)
        rw [hAll, hFirst, List.flatMap_cons, List.map_append, expansion, Selection.expansion, hSame]
      · have hNone : (expansion script d).filter (·.choice == choice) = [] := by
          rw [List.filter_eq_nil_iff]
          intro x hx
          obtain ⟨l, -, rfl⟩ := List.mem_map.mp hx
          exact fun h => hSame (beq_iff_eq.mp h)
        have hFirst : Directive.naming choice (d :: ds) = Directive.naming choice ds :=
          List.filter_cons_of_neg fun h => hSame (beq_iff_eq.mp h)
        rw [hNone, hFirst, List.nil_append]

/-- The script has no say in a choice that a directive names. -/
theorem filter_asked (h : choice ∈ directives.map Directive.choice) :
    (asked directives script).filter (·.choice == choice) =
      ((Directive.naming choice directives).flatMap fun d =>
        if isAllLabels d.label then labelsOf script choice else [d.label]).map
          (Selection.mk choice) := by
  have hScript : Directive.naming choice ((selects script).filter fun d =>
      !directives.any (·.choice == d.choice)) = [] := by
    refine Directive.naming_eq_nil_iff.mpr fun hNamed => ?_
    obtain ⟨d, hd, rfl⟩ := List.mem_map.mp hNamed
    obtain ⟨given, hGiven, hSame⟩ := List.mem_map.mp h
    have hTaken : directives.any (·.choice == d.choice) = true :=
      List.any_eq_true.mpr ⟨given, hGiven, beq_iff_eq.mpr hSame⟩
    have hFree := (List.mem_filter.mp hd).2
    rw [hTaken] at hFree
    cases hFree
  rw [asked, List.filter_append, requests, filter_expansion, filter_expansion, hScript]
  rfl

/-- A declared axis has a label. -/
theorem labels_ne_nil {kind : AxisKind} {axis : AxisDeclaration} (h : axis ∈ axes kind script) :
    axis.labels ≠ [] := by
  obtain ⟨statement, -, hAxis⟩ := List.mem_filterMap.mp h
  cases statement with
  | axis kind' name label labels default =>
      obtain ⟨-, hAxis⟩ := Option.ite_none_right_eq_some.mp hAxis
      cases hAxis
      exact List.cons_ne_nil _ _
  | _ => cases hAxis

/-- The selected labels of a choice that directives name are those they ask for. -/
theorem filter_selections (h : choice ∈ directives.map Directive.choice) :
    ((selections directives script).filter (·.choice == choice)).map Selection.label =
      Directive.picks (labelsOf script choice) (Directive.naming choice directives) := by
  have hAsked : (asked directives script).filter (·.choice == choice) = _ := filter_asked h
  have hInjective : Function.Injective (Selection.mk choice) := fun _ _ hSame =>
    (Selection.mk.inj hSame).2
  have hLabels : ∀ labels : List Text,
      (labels.map (Selection.mk choice)).map Selection.label = labels := by
    intro labels
    rw [List.map_map]
    exact List.map_id labels
  rw [selections]
  split
  · rw [filter_eraseDups, hAsked, eraseDups_map hInjective, hLabels]
    rfl
  · -- Nothing is asked for, so the directives ask for nothing, and the choice is not the only one.
    rename_i hNothing
    rw [not_ne_iff.mp hNothing, List.filter_nil] at hAsked
    have hNone := List.map_eq_nil_iff.mp hAsked.symm
    rw [Directive.picks, hNone]
    split
    · rename_i axis hOnly
      have hOther : axis.name ≠ choice := by
        rintro rfl
        obtain ⟨d, hd, hName⟩ := List.mem_map.mp h
        have hLabelsOf : labelsOf script axis.name = axis.labels := by
          simp [labelsOf, hOnly]
        have hd' : d ∈ Directive.naming axis.name directives :=
          List.mem_filter.mpr ⟨hd, beq_iff_eq.mpr hName⟩
        have hEmpty := List.flatMap_eq_nil_iff.mp hNone d hd'
        split at hEmpty
        · exact labels_ne_nil (hOnly ▸ List.mem_singleton_self axis) (hLabelsOf ▸ hEmpty)
        · cases hEmpty
      simp [hOther]
    · rfl

end Script

section runs

open History

variable {config : Config} {source source' : Text} {s s' : State} {choice : Text}
  {settings flags : List Text}

def sourceEvents (source : Text) : List Event := heard (Parse.ofSource source).emitted

/-- Events without what selects labels of a choice. -/
def History.withoutSelects (choice : Text) (events : List Event) : List Event := events.filter fun
  | .select name _ => name != choice
  | _ => true

/-- The source is run to its end with these settings and these flags. -/
def RunsWith (settings flags : List Text) (source : Text) (s : State) : Prop :=
  ∃ config, Directive.combine settings flags = .ok config.directives ∧
    runScript config {} source = (s, none)

/-- What selects labels of a choice declares none. -/
theorem labels_withoutSelects (choice : Text) (events : List Event) :
    labels choice (withoutSelects choice events) = labels choice events := by
  rw [labels, withoutSelects, List.filterMap_filter, labels]
  congr
  funext e
  cases e with
  | select name label => by_cases h : name = choice <;> simp [h]
  | _ => rfl

/-- A source that is run to its end has events of a script tree. All but the last have been gathered
when the directives are applied. -/
theorem gathered_of_runScript (h : runScript config {} source = (s, none)) :
    ∃ script s₁, sourceEvents source = scriptEvents script ∧ s₁.Gathered config script ∧
      State.SoundRun config s₁ [.endScript] s := by
  obtain ⟨script, -, -, -, hEvents, hRun⟩ := Parse.exists_script_of_drive h
  obtain ⟨s₁, hGathered, hEnding⟩ := State.gathered_of_handOn hEvents hRun
  exact ⟨script, s₁, hEvents, hGathered, hEnding⟩

/-- The labels of a choice that directives name, and those that the choice keeps. -/
theorem labelsSelected_of_named (hRun : runScript config {} source = (s, none))
    (hNamed : choice ∈ config.directives.map Directive.choice) :
    s.labelsSelected choice = Directive.picks (labels choice (sourceEvents source))
      (Directive.naming choice config.directives) := by
  obtain ⟨script, s₁, hEvents, hGathered, hEnding⟩ := gathered_of_runScript hRun
  have hLabels : labels choice (sourceEvents source) = Script.labelsOf script choice := by
    have hOpening : scriptEvents script = openingEvents script ++ [.endScript] := rfl
    rw [hEvents, hOpening, labels_silent rfl, hGathered.labels]
  rw [State.labelsSelected, hGathered.selections hEnding, hLabels, Script.filter_selections hNamed]

section runsWith

variable {fromSettings fromFlags : List Directive}

/-- A run implies that the settings could be read: a malformed directive there would have stopped it
before the script. -/
theorem RunsWith.exists_settings (h : RunsWith settings flags source s) :
    ∃ fromSettings, Directive.Parsed settings fromSettings := by
  obtain ⟨config, hCombine, -⟩ := h
  obtain ⟨fromSettings, -, hSettings, -⟩ := Directive.combine_eq_ok hCombine
  exact ⟨fromSettings, hSettings⟩

/-- The directives of a run are what its settings and flags come to. -/
theorem RunsWith.exists_config (h : RunsWith settings flags source s)
    (hSettings : Directive.Parsed settings fromSettings) (hFlags : Directive.Parsed flags fromFlags) :
    ∃ config, config.directives =
        fromSettings.filter (fun d => d.choice ∉ fromFlags.map Directive.choice) ++ fromFlags ∧
      runScript config {} source = (s, none) := by
  obtain ⟨config, hCombine, hRun⟩ := h
  obtain ⟨fromSettings', fromFlags', hSettings', hFlags', hDirectives⟩ :=
    Directive.combine_eq_ok hCombine
  rw [hSettings'.unique hSettings, hFlags'.unique hFlags] at hDirectives
  exact ⟨config, hDirectives, hRun⟩

/-- What flags ask for is selected. -/
theorem RunsWith.labels_of_flag (h : RunsWith settings flags source s)
    (hFlags : Directive.Parsed flags fromFlags) (hNamed : choice ∈ fromFlags.map Directive.choice) :
    s.labelsSelected choice = Directive.picks (labels choice (sourceEvents source))
      (Directive.naming choice fromFlags) := by
  obtain ⟨fromSettings, hSettings⟩ := h.exists_settings
  obtain ⟨config, hDirectives, hRun⟩ := h.exists_config hSettings hFlags
  have hInForce : choice ∈ config.directives.map Directive.choice := by
    rw [hDirectives, List.map_append]
    exact List.mem_append_right _ hNamed
  rw [labelsSelected_of_named hRun hInForce, hDirectives, Directive.naming_of_flag hNamed]

/-- So is what the settings ask for when no flag does. -/
theorem RunsWith.labels_of_setting (h : RunsWith settings flags source s)
    (hSettings : Directive.Parsed settings fromSettings) (hFlags : Directive.Parsed flags fromFlags)
    (hNamed : choice ∈ fromSettings.map Directive.choice)
    (hFree : choice ∉ fromFlags.map Directive.choice) :
    s.labelsSelected choice = Directive.picks (labels choice (sourceEvents source))
      (Directive.naming choice fromSettings) := by
  obtain ⟨config, hDirectives, hRun⟩ := h.exists_config hSettings hFlags
  have hInForce : choice ∈ config.directives.map Directive.choice := by
    by_contra hNone
    rw [← Directive.naming_eq_nil_iff, hDirectives, Directive.naming_of_setting hFree,
      Directive.naming_eq_nil_iff] at hNone
    exact hNone hNamed
  rw [labelsSelected_of_named hRun hInForce, hDirectives, Directive.naming_of_setting hFree]

end runsWith

/-- What a choice keeps are its selections in the list of all. -/
theorem selected_eq_labelsSelected (hRun : runScript config {} source = (s, none)) {axis : Axis}
    (hAxis : s.choices.get? choice = some axis) : axis.selected = s.labelsSelected choice := by
  obtain ⟨script, s₁, -, -, hEnding⟩ := gathered_of_runScript hRun
  obtain ⟨-, -, s₂, -, hRest⟩ := hEnding.uncons
  obtain ⟨diary, rfl⟩ := hRest.eq_of_nil
  obtain ⟨hMem, rfl⟩ := Registry.get?_eq_some hAxis
  exact hRest.sound.resolver.selected axis hMem

/-- The command line comes before the settings, and the settings before the script. The directives in
force are the entries of the settings whose choice no flag names, and then the flags. When a run ends
without failure, the selected labels of a choice that flags name are those the flags ask for, and no
other settings and no other select statements for it change them. Those of a choice that the settings
name and no flag does are those the settings ask for, whatever else is changed. -/
theorem precedence {directives : List Directive}
    (hAccepted : Directive.combine settings flags = .ok directives) :
    ∃ fromSettings fromFlags, Directive.Parsed settings fromSettings ∧
      Directive.Parsed flags fromFlags ∧
      directives = fromSettings.filter (fun d => d.choice ∉ fromFlags.map Directive.choice) ++
        fromFlags ∧
      ∀ source s, RunsWith settings flags source s → ∀ choice,
        (∀ axis, s.choices.get? choice = some axis → axis.selected = s.labelsSelected choice) ∧
        (choice ∈ fromFlags.map Directive.choice →
          s.labelsSelected choice = Directive.picks (labels choice (sourceEvents source))
            (Directive.naming choice fromFlags) ∧
          ∀ settings' source' s', RunsWith settings' flags source' s' →
            withoutSelects choice (sourceEvents source') =
              withoutSelects choice (sourceEvents source) →
            s'.labelsSelected choice = s.labelsSelected choice) ∧
        (choice ∈ fromSettings.map Directive.choice → choice ∉ fromFlags.map Directive.choice →
          s.labelsSelected choice = Directive.picks (labels choice (sourceEvents source))
            (Directive.naming choice fromSettings) ∧
          ∀ settings' flags' fromSettings' fromFlags' source' s',
            Directive.Parsed settings' fromSettings' → Directive.Parsed flags' fromFlags' →
            Directive.naming choice fromSettings' = Directive.naming choice fromSettings →
            choice ∉ fromFlags'.map Directive.choice → RunsWith settings' flags' source' s' →
            withoutSelects choice (sourceEvents source') =
              withoutSelects choice (sourceEvents source) →
            s'.labelsSelected choice = s.labelsSelected choice) := by
  obtain ⟨fromSettings, fromFlags, hSettings, hFlags, rfl⟩ := Directive.combine_eq_ok hAccepted
  refine ⟨fromSettings, fromFlags, hSettings, hFlags, rfl, fun source s hRun choice => ⟨?_, ?_, ?_⟩⟩
  · obtain ⟨config, -, hRun⟩ := hRun
    exact fun axis => selected_eq_labelsSelected hRun
  · intro hNamed
    refine ⟨hRun.labels_of_flag hFlags hNamed, fun settings' source' s' hRun' hSame => ?_⟩
    rw [hRun.labels_of_flag hFlags hNamed, hRun'.labels_of_flag hFlags hNamed,
      ← labels_withoutSelects, hSame, labels_withoutSelects]
  · intro hNamed hFree
    refine ⟨hRun.labels_of_setting hSettings hFlags hNamed hFree, ?_⟩
    intro settings' flags' fromSettings' fromFlags' source' s' hSettings' hFlags' hEntries hFree' hRun'
      hSame
    have hNamed' : choice ∈ fromSettings'.map Directive.choice := by
      by_contra hNone
      rw [Directive.naming_eq_nil_iff.mpr hNone, eq_comm, Directive.naming_eq_nil_iff] at hEntries
      exact hEntries hNamed
    rw [hRun.labels_of_setting hSettings hFlags hNamed hFree,
      hRun'.labels_of_setting hSettings' hFlags' hNamed' hFree', hEntries, ← labels_withoutSelects,
      hSame, labels_withoutSelects]

/-- A script that selects labels of two choices. -/
def selectingScript : Text :=
  "tool: t; input: s; choice c: a | b; choice d: e | f; select c: a; select d: f;"

/-- A flag for one choice takes the place of the setting and of the select statement for it, while
another choice still follows its setting. -/
theorem precedence_selectingScript :
    ∃ s, RunsWith ["c:a", "d:all"] ["c:b"] selectingScript s ∧
      s.labelsSelected "c" = ["b"] ∧ s.labelsSelected "d" = ["e", "f"] := by
  have hSettings : Directive.Parsed ["c:a", "d:all"] [⟨"c", "a"⟩, ⟨"d", "all"⟩] :=
    .cons rfl (.cons rfl .nil)
  have hFlags : Directive.Parsed ["c:b"] [⟨"c", "b"⟩] := .cons rfl .nil
  have hAccepted : Directive.combine ["c:a", "d:all"] ["c:b"] = .ok [⟨"d", "all"⟩, ⟨"c", "b"⟩] := rfl
  have hEnds : (runScript ⟨[⟨"d", "all"⟩, ⟨"c", "b"⟩], [], []⟩ {} selectingScript).2.isNone = true := by
    decide +kernel
  have hRun : RunsWith ["c:a", "d:all"] ["c:b"] selectingScript _ :=
    ⟨⟨[⟨"d", "all"⟩, ⟨"c", "b"⟩], [], []⟩, hAccepted, Prod.ext rfl (Option.isNone_iff_eq_none.mp hEnds)⟩
  obtain ⟨fromSettings, fromFlags, hSettings', hFlags', -, hDecided⟩ := precedence hAccepted
  obtain rfl := hSettings.unique hSettings'
  obtain rfl := hFlags.unique hFlags'
  have hFlag := ((hDecided _ _ hRun "c").2.1 (by decide)).1
  have hSetting := ((hDecided _ _ hRun "d").2.2 (by decide) (by decide)).1
  refine ⟨_, hRun, hFlag.trans ?_, hSetting.trans ?_⟩
  · decide +kernel
  · decide +kernel

end runs

end Runsheet

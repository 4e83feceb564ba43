import Runsheet.Proofs.Engine.Meaning
import Runsheet.Proofs.Plan.Reading
import Runsheet.Proofs.Script.Exactness
import Runsheet.Proofs.Script.Texts
import Runsheet.Proofs.Token.Utf8

/-! Plan files of plans that scripts make. Nothing asks a script to be in UTF-8, so a plan may hold
texts that can be written to a file but not read from it. -/
namespace Runsheet

namespace State

variable {config : Config} {s s' : State} {script : List Statement} {emitted : List Emission}

/-- A selection that is left at the end is of a label that the script declares. -/
theorem Reached.selections (h : s.Reached script) (hRun : SoundRun config s [.endScript] s') :
    ∀ x ∈ s'.selections, ∃ axis ∈ Script.axes .choice script,
      axis.name = x.choice ∧ x.label ∈ axis.labels := by
  obtain ⟨diary, pos, s₁, taken, ⟨_, hEnd⟩⟩ := hRun.uncons
  cases hEnd
  obtain ⟨_, _, r, sources, plan, diary', hSame, hSound, _, _, rfl⟩ := endScript_eq_none taken
  have hSelf : State.Sound { s with toDiary := diary } := hRun.sound.congr rfl rfl rfl rfl
  have hAxes : r.choices.axes.map Axis.declaration = Script.axes .choice script :=
    (hSame.map_eq Axis.declaration fun _ => rfl).trans (h.axes .choice)
  intro x hx
  obtain ⟨a, ha, hLabel⟩ := (hSound hSelf.resolver).label_declared hx
  obtain ⟨hMem, hName⟩ := Registry.get?_eq_some ha
  exact ⟨a.declaration, hAxes ▸ List.mem_map_of_mem hMem, hName, hLabel⟩

/-- A new engine that takes the events of a script comes to its end with the whole script told. -/
theorem reached_of_handOn (hEvents : heard emitted = scriptEvents script)
    (hRun : handOn (receive config) {} emitted = (s, none)) :
    ∃ s₁ : State, s₁.Reached script ∧ SoundRun config s₁ [.endScript] s := by
  have hRan : SoundRun config {} (scriptEvents script) s :=
    ⟨sound_empty, hEvents ▸ ran_of_handOn hRun⟩
  obtain ⟨diary, hBegun⟩ := SoundRun.beginScript hRan
  obtain ⟨s₁, hEnding, hReached⟩ := (reached_begun diary).statements hBegun
  exact ⟨s₁, hReached, hEnding⟩

end State

section files

variable {config : Config} {source : Text} {s : State}

/-- A source that is run without failure spells a script and leaves a plan, all of whose texts stand
in the script or go with it. -/
theorem plan_of_runScript (h : runScript config {} source = (s, none)) :
    ∃ script symbols p, scriptSpelling script symbols ∧ Layout symbols source ∧ s.plan = some p ∧
      ∀ c ∈ p.toList, ∀ t ∈ c.texts, t = [] ∨ t ∈ Script.texts script ++ config.inputs := by
  obtain ⟨script, symbols, hSpelling, hLayout, hEvents, hRun⟩ := Parse.exists_script_of_drive h
  obtain ⟨s₁, hReached, hEnding⟩ := State.reached_of_handOn hEvents hRun
  obtain ⟨tool, found, hTool, hFound, hPlan⟩ := hReached.plan hEnding
  refine ⟨script, symbols, _, hSpelling, hLayout, hPlan, fun c hc => ?_⟩
  exact Script.texts_commands_subset hTool hFound (hReached.selections hEnding) hc

/-- The plan of a script in UTF-8 that is run over sources in UTF-8 has texts in UTF-8. -/
theorem allUtf8_of_runScript (h : runScript config {} source = (s, none))
    (hSource : source.isUtf8 = true) (hInputs : AllUtf8 config.inputs) :
    ∃ p, s.plan = some p ∧ ∀ c ∈ p.toList, AllUtf8 c.texts := by
  obtain ⟨script, symbols, p, hSpelling, hLayout, hPlan, hTexts⟩ := plan_of_runScript h
  have hScript : AllUtf8 (Script.texts script) := by
    refine gives_scriptSpelling script symbols hSpelling ?_
    exact List.forall_mem_map.mpr (hLayout.isUtf8_values hSource)
  refine ⟨p, hPlan, fun c hc t ht => ?_⟩
  rcases hTexts c hc t ht with rfl | ht
  · exact Text.isUtf8_nil
  · exact allUtf8_append.mpr ⟨hScript, hInputs⟩ t ht

/-- The file of a plan that a script makes is read back as that plan, with the hash that names it,
exactly when its texts are UTF-8 and no command has more than 131072 arguments. The former is so
whenever the script and the sources that go with it are in UTF-8. -/
theorem ofFile_of_runScript (h : runScript config {} source = (s, none)) :
    ∃ p, s.plan = some p ∧
      (∀ f, p.toFile = .ok f → ∃ digest, p.digest = .ok digest ∧
        (Plan.ofFile f = .ok ⟨p, digest, []⟩ ↔ ∀ c ∈ p.toList,
          (∀ t ∈ c.texts, t.isUtf8 = true) ∧ (c.args.getD []).length ≤ 131072)) ∧
      (source.isUtf8 = true → (∀ i ∈ config.inputs, i.isUtf8 = true) →
        ∀ c ∈ p.toList, ∀ t ∈ c.texts, t.isUtf8 = true) := by
  obtain ⟨_, _, p, _, _, hPlan, _⟩ := plan_of_runScript h
  refine ⟨p, hPlan, fun f hFile => ?_, fun hSource hInputs => ?_⟩
  · obtain ⟨-, -, hCanonical, -⟩ := Plan.toFile_eq_ok hFile
    have hDigest : p.digest = .ok (Blake2b.sum256 p.body) := by
      rw [Plan.digest, hCanonical]
      rfl
    exact ⟨_, hDigest, Plan.ofFile_eq_ok_iff hFile⟩
  · obtain ⟨q, hPlan', hTexts⟩ := allUtf8_of_runScript h hSource hInputs
    rw [hPlan] at hPlan'
    cases hPlan'
    exact hTexts

/-- A script over one source, which is given between quotes. -/
def sourceScript (name : Text) : Text := Text.ofString "tool: t; input: '" ++ name ++ "';"

/-- The plan of the script. -/
def sourcePlan (name : Text) : Plan := ⟨some [{ tool := "t", input := name }]⟩

/-- A source with a letter outside ASCII, in UTF-8, comes through the plan file unchanged. -/
theorem ofFile_of_runScript_accented :
    ∃ s digest f, runScript {} {} (sourceScript "é") = (s, none) ∧
      s.plan = some (sourcePlan "é") ∧ (sourcePlan "é").toFile = .ok f ∧
      (sourcePlan "é").digest = .ok digest ∧ Plan.ofFile f = .ok ⟨sourcePlan "é", digest, []⟩ := by
  have hEnds : (runScript {} {} (sourceScript "é")).2.isNone = true := by decide +kernel
  have hMade : (runScript {} {} (sourceScript "é")).1.plan = some (sourcePlan "é") := by
    decide +kernel
  have hRun : runScript {} {} (sourceScript "é") = ((runScript {} {} (sourceScript "é")).1, none) :=
    Prod.ext rfl (Option.isNone_iff_eq_none.mp hEnds)
  obtain ⟨p, hPlan, hFile, hTexts⟩ := ofFile_of_runScript hRun
  obtain rfl : sourcePlan "é" = p := Option.some.inj (hMade.symm.trans hPlan)
  have hUtf8 := hTexts (by decide +kernel) nofun
  have hArgs : ∀ c ∈ (sourcePlan "é").toList, (c.args.getD []).length ≤ 131072 := by decide
  obtain ⟨digest, hDigest, hRead⟩ := hFile _ rfl
  exact ⟨_, digest, _, hRun, hMade, rfl, hDigest, hRead.mpr fun c hc => ⟨hUtf8 c hc, hArgs c hc⟩⟩

/-- A script with a byte that starts no character makes a plan whose file is refused. -/
theorem not_ofFile_of_runScript_byte :
    ¬ ∀ (config : Config) (source : Text) (s : State) (p : Plan) (f : Text),
      runScript config {} source = (s, none) → s.plan = some p → p.toFile = .ok f →
        ∃ digest, p.digest = .ok digest ∧ Plan.ofFile f = .ok ⟨p, digest, []⟩ := by
  intro h
  have hEnds : (runScript {} {} (sourceScript [0xff])).2.isNone = true := by decide +kernel
  have hMade : (runScript {} {} (sourceScript [0xff])).1.plan = some (sourcePlan [0xff]) := by
    decide +kernel
  have hRun : runScript {} {} (sourceScript [0xff]) =
      ((runScript {} {} (sourceScript [0xff])).1, none) :=
    Prod.ext rfl (Option.isNone_iff_eq_none.mp hEnds)
  obtain ⟨digest, hDigest, hRead⟩ := h {} _ _ _ _ hRun hMade rfl
  obtain rfl : Blake2b.sum256 (sourcePlan [0xff]).body = digest := Except.ok.inj hDigest
  have hReadable := (Plan.ofFile_eq_ok_iff rfl).mp hRead
  have hUtf8 := (hReadable _ List.mem_cons_self).1 [0xff] (by decide)
  exact absurd hUtf8 (by decide)

end files

end Runsheet

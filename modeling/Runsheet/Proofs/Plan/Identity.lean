import Runsheet.Proofs.Plan.File

/-! The canonical form of a plan tells it from every other plan. Each part of the form marks its own
end, from a head up to the whole body, so of two forms one begins with the other only when the plans
are the same. The bytes of texts play no part in this. -/
namespace Runsheet

namespace Cbor

section forms

variable {α β : Type} {Fits : α → Prop} {encode : α → Text}

/-- Whether the forms of fitting values mark their own ends: what begins with two forms has them for
one value, with the same rest. -/
def SelfDelimiting (Fits : α → Prop) (encode : α → Text) : Prop :=
  ∀ ⦃a b : α⦄ ⦃rest rest' : Text⦄, Fits a → Fits b →
    encode a ++ rest = encode b ++ rest' → a = b ∧ rest = rest'

/-- The form of a list that may be missing. -/
def optionalArray (encode : α → Text) : Option (List α) → Text
  | some values => array (values.map encode)
  | none => null

/-- A list, missing or not, starts with a head of a major type from four on, which no text or number
starts with. -/
theorem optionalArray_head {values : Option (List α)} (encode : α → Text)
    (h : (values.getD []).length < limit 8) :
    ∃ major n tail, 4 ≤ major ∧ major < 8 ∧ n < limit 8 ∧
      optionalArray encode values = head major n ++ tail := by
  cases values with
  | none => exact ⟨7, 22, [], by decide, by decide, by decide, rfl⟩
  | some values =>
      refine ⟨4, values.length, (values.map encode).flatten, by decide, by decide, h, ?_⟩
      rw [optionalArray, array, List.length_map]

/-- A head tells its major type and its argument, in whichever of the five sizes it is written. -/
theorem head_inj {major major' n n' : Nat} {rest rest' : Text} (hMajor : major < 8)
    (hMajor' : major' < 8) (hn : n < limit 8) (hn' : n' < limit 8)
    (h : head major n ++ rest = head major' n' ++ rest') :
    major = major' ∧ n = n' ∧ rest = rest' := by
  obtain ⟨width, hRead⟩ := readHead_head major hMajor hn rest
  obtain ⟨width', hRead'⟩ := readHead_head major' hMajor' hn' rest'
  rw [h, hRead'] at hRead
  cases hRead
  exact ⟨rfl, rfl, rfl⟩

/-- Keys are numbers in their shortest form; two different ones never begin alike and go on
differently. -/
theorem selfDelimiting_key : SelfDelimiting (· < limit 8) (head 0) := by
  intro n n' rest rest' hn hn' h
  obtain ⟨-, hKey, hRest⟩ := head_inj (by decide) (by decide) hn hn' h
  exact ⟨hKey, hRest⟩

/-- The head of a text tells its length, so that the text ends where its bytes do. -/
theorem selfDelimiting_text : SelfDelimiting (·.length < limit 8) text := by
  intro t t' rest rest' ht ht' h
  rw [text, text, List.append_assoc, List.append_assoc] at h
  obtain ⟨-, hLength, hBytes⟩ := head_inj (by decide) (by decide) ht ht' h
  exact List.append_inj hBytes hLength

namespace SelfDelimiting

/-- A form after another. -/
theorem pair {Fits' : β → Prop} {encode' : β → Text} (h : SelfDelimiting Fits encode)
    (h' : SelfDelimiting Fits' encode') :
    SelfDelimiting (fun x : α × β => Fits x.1 ∧ Fits' x.2)
      fun x => encode x.1 ++ encode' x.2 := by
  intro x y rest rest' hx hy hSame
  rw [List.append_assoc, List.append_assoc] at hSame
  obtain ⟨hFirst, hMore⟩ := h hx.1 hy.1 hSame
  obtain ⟨hSecond, hRest⟩ := h' hx.2 hy.2 hMore
  exact ⟨Prod.ext hFirst hSecond, hRest⟩

/-- The forms of as many values in a row. -/
theorem row (h : SelfDelimiting Fits encode) {as bs : List α} {rest rest' : Text}
    (has : ∀ a ∈ as, Fits a) (hbs : ∀ b ∈ bs, Fits b) (hLength : as.length = bs.length)
    (hSame : as.flatMap encode ++ rest = bs.flatMap encode ++ rest') : as = bs ∧ rest = rest' := by
  induction as generalizing bs with
  | nil =>
      obtain rfl := List.length_eq_zero_iff.mp hLength.symm
      exact ⟨rfl, hSame⟩
  | cons a as ih =>
      cases bs with
      | nil => cases hLength
      | cons b bs =>
          obtain ⟨ha, has⟩ := List.forall_mem_cons.mp has
          obtain ⟨hb, hbs⟩ := List.forall_mem_cons.mp hbs
          rw [List.flatMap_cons, List.flatMap_cons, List.append_assoc, List.append_assoc] at hSame
          obtain ⟨hFirst, hMore⟩ := h ha hb hSame
          obtain ⟨hOthers, hRest⟩ := ih has hbs (by simpa using hLength) hMore
          exact ⟨by rw [hFirst, hOthers], hRest⟩

/-- A row of values after a head with their number. -/
theorem counted (h : SelfDelimiting Fits encode) {major : Nat} (hMajor : major < 8) :
    SelfDelimiting (fun as : List α => as.length < limit 8 ∧ ∀ a ∈ as, Fits a)
      fun as => head major as.length ++ as.flatMap encode := by
  intro as bs rest rest' has hbs hSame
  rw [List.append_assoc, List.append_assoc] at hSame
  obtain ⟨-, hLength, hRow⟩ := head_inj hMajor hMajor has.1 hbs.1 hSame
  exact h.row has.2 hbs.2 hLength hRow

/-- A list that may be missing. The mark for nothing is no head of a list. -/
theorem list (h : SelfDelimiting Fits encode) :
    SelfDelimiting
      (fun values : Option (List α) => (values.getD []).length < limit 8 ∧
        ∀ a ∈ values.getD [], Fits a)
      (optionalArray encode) := by
  have hArray : ∀ as : List α, array (as.map encode) = head 4 as.length ++ as.flatMap encode := by
    intro as
    rw [array, List.length_map, List.flatMap_def]
  have hNull : null = head 7 22 := rfl
  have hSmall : 22 < limit 8 := by decide
  intro values values' rest rest' hFits hFits' hSame
  cases values with
  | none =>
      cases values' with
      | none => exact ⟨rfl, List.append_cancel_left hSame⟩
      | some bs =>
          simp only [optionalArray, hArray, hNull, List.append_assoc] at hSame
          obtain ⟨hMajor, -⟩ := head_inj (by decide) (by decide) hSmall hFits'.1 hSame
          cases hMajor
  | some as =>
      cases values' with
      | none =>
          simp only [optionalArray, hArray, hNull, List.append_assoc] at hSame
          obtain ⟨hMajor, -⟩ := head_inj (by decide) (by decide) hFits.1 hSmall hSame
          cases hMajor
      | some bs =>
          simp only [optionalArray, hArray] at hSame
          obtain ⟨rfl, hRest⟩ := h.counted (by decide) hFits hFits' hSame
          exact ⟨rfl, hRest⟩

/-- Fields with small keys. -/
theorem map (h : SelfDelimiting Fits encode) :
    SelfDelimiting
      (fun fields : List (Nat × α) => fields.length < limit 8 ∧
        ∀ f ∈ fields, f.1 < limit 8 ∧ Fits f.2)
      fun fields => Cbor.map (fields.map fun f => (f.1, encode f.2)) := by
  have hMap : ∀ fields : List (Nat × α), Cbor.map (fields.map fun f => (f.1, encode f.2)) =
      head 5 fields.length ++ fields.flatMap fun f => head 0 f.1 ++ encode f.2 := by
    intro fields
    rw [Cbor.map, List.length_map, List.flatMap_map]
  intro fields fields' rest rest' hFits hFits' hSame
  simp only [hMap] at hSame
  exact (selfDelimiting_key.pair h).counted (by decide) hFits hFits' hSame

/-- Values that are told by what is written for them. -/
theorem comap {γ : Type} {Fits' : γ → Prop} {view : γ → α} (h : SelfDelimiting Fits encode)
    (hView : Function.Injective view) (hFits : ∀ c, Fits' c → Fits (view c)) :
    SelfDelimiting Fits' fun c => encode (view c) := by
  intro c d rest rest' hc hd hSame
  obtain ⟨hEqual, hRest⟩ := h (hFits c hc) (hFits d hd) hSame
  exact ⟨hView hEqual, hRest⟩

end SelfDelimiting

end forms

end Cbor

namespace Command

open Cbor

/-- What a field of a command holds. -/
inductive Value
  | text (t : Text)
  | list (texts : Option (List Text))
  deriving DecidableEq

namespace Value

def encode : Value → Text
  | text t => Cbor.text t
  | list texts => optionalArray Cbor.text texts

/-- Whether every length is written in a head. -/
def Fits : Value → Prop
  | text t => t.length < limit 8
  | list texts => (texts.getD []).length < limit 8 ∧ ∀ t ∈ texts.getD [], t.length < limit 8

/-- A text has another head than a list or nothing. -/
theorem encode_text_ne_list {t : Text} {texts : Option (List Text)} {rest rest' : Text}
    (ht : (text t).Fits) (hTexts : (list texts).Fits) :
    (text t).encode ++ rest ≠ (list texts).encode ++ rest' := by
  intro hSame
  obtain ⟨major, n, tail, hLower, hUpper, hn, hHead⟩ := optionalArray_head Cbor.text hTexts.1
  rw [encode, encode, hHead, Cbor.text, List.append_assoc, List.append_assoc] at hSame
  obtain ⟨rfl, -⟩ := head_inj (by decide) hUpper ht hn hSame
  exact absurd hLower (by decide)

/-- What a field holds can be told apart from what comes after it, whichever form the field has. -/
theorem selfDelimiting : SelfDelimiting Fits encode := by
  intro v w rest rest' hv hw hSame
  cases v with
  | text t =>
      cases w with
      | text u =>
          obtain ⟨rfl, hRest⟩ := selfDelimiting_text hv hw hSame
          exact ⟨rfl, hRest⟩
      | list texts => exact absurd hSame (encode_text_ne_list hv hw)
  | list texts =>
      cases w with
      | text u => exact absurd hSame.symm (encode_text_ne_list hw hv)
      | list texts' =>
          obtain ⟨rfl, hRest⟩ := selfDelimiting_text.list hv hw hSame
          exact ⟨rfl, hRest⟩

end Value

def namedEntry (key : Nat) (t : Text) : List (Nat × Value) :=
  if t.isEmpty then [] else [(key, .text t)]

def entries (c : Command) : List (Nat × Value) :=
  [(1, .text c.tool), (2, .text c.input)] ++ namedEntry 3 c.choice ++ namedEntry 4 c.label ++
    [(5, .list c.args)]

/-- The canonical form is that of the entries, from which missing texts have been left out before.
-/
theorem canonical_eq_entries (c : Command) :
    c.canonical = Cbor.map (c.entries.map fun e => (e.1, e.2.encode)) := by
  have hNamed : ∀ key t, (if t.isEmpty then [] else [(key, Cbor.text t)]) =
      (namedEntry key t).map fun e => (e.1, e.2.encode) := by
    intro key t
    rw [namedEntry]
    split
    · rfl
    · rfl
  rw [canonical, entries]
  simp only [hNamed, List.map_append]
  cases c.args with
  | none => rfl
  | some args => rfl

/-- A text is what its field holds, or empty when there is none. -/
theorem lookup_entries (c : Command) :
    c.entries.lookup 3 = (if c.choice.isEmpty then none else some (.text c.choice)) ∧
      c.entries.lookup 4 = (if c.label.isEmpty then none else some (.text c.label)) ∧
      c.entries.lookup 1 = some (.text c.tool) ∧ c.entries.lookup 2 = some (.text c.input) ∧
      c.entries.lookup 5 = some (.list c.args) := by
  simp only [entries, namedEntry]
  split <;> split <;> simp [List.lookup_cons]

/-- A text that is left out when empty can be told from the field, the empty one by its absence. -/
theorem eq_of_named {t u : Text} (h : (if t.isEmpty then none else some (Value.text t)) =
    if u.isEmpty then none else some (Value.text u)) : t = u := by
  cases t with
  | nil =>
      cases u with
      | nil => rfl
      | cons b u => cases h
  | cons a t =>
      cases u with
      | nil => cases h
      | cons b u => exact Value.text.inj (Option.some.inj h)

/-- A command is told by its fields, also when some of them are left out. -/
theorem entries_injective : Function.Injective entries := by
  intro c d h
  obtain ⟨hChoice, hLabel, hTool, hInput, hArgs⟩ := c.lookup_entries
  obtain ⟨hChoice', hLabel', hTool', hInput', hArgs'⟩ := d.lookup_entries
  rw [h] at hChoice hLabel hTool hInput hArgs
  have hSameTool : c.tool = d.tool := Value.text.inj (Option.some.inj (hTool.symm.trans hTool'))
  have hSameInput : c.input = d.input :=
    Value.text.inj (Option.some.inj (hInput.symm.trans hInput'))
  have hSameChoice : c.choice = d.choice := eq_of_named (hChoice.symm.trans hChoice')
  have hSameLabel : c.label = d.label := eq_of_named (hLabel.symm.trans hLabel')
  have hSameArgs : c.args = d.args := Value.list.inj (Option.some.inj (hArgs.symm.trans hArgs'))
  cases c
  cases d
  simp_all

/-- What lengths are below, 2^63. -/
def lengthLimit : Nat := 0x8000000000000000

/-- Whether every length in a command is below 2^63. -/
def Addressable (c : Command) : Prop :=
  (∀ t ∈ c.texts, t.length < lengthLimit) ∧ (c.args.getD []).length < lengthLimit

/-- With lengths below the bound, every entry of a command can be written in a head, and there are
few of them. -/
theorem Addressable.entries {c : Command} (h : c.Addressable) :
    c.entries.length < limit 8 ∧ ∀ e ∈ c.entries, e.1 < limit 8 ∧ e.2.Fits := by
  have hWide : lengthLimit < limit 8 := by decide
  have hText : ∀ t ∈ c.texts, t.length < limit 8 := fun t ht => Nat.lt_trans (h.1 t ht) hWide
  have hNamed : ∀ key < limit 8, ∀ t ∈ c.texts, ∀ e ∈ namedEntry key t,
      e.1 < limit 8 ∧ e.2.Fits := by
    intro key hKey t ht e he
    rw [namedEntry] at he
    split at he
    · cases he
    · obtain rfl := List.mem_singleton.mp he
      exact ⟨hKey, hText t ht⟩
  have hKey : ∀ key ≤ 5, key < limit 8 := fun key hKey => Nat.lt_of_le_of_lt hKey (by decide)
  constructor
  · have hCount : c.entries.length ≤ 5 := by
      simp only [Command.entries, namedEntry]
      split <;> split <;> simp
    exact hKey _ hCount
  · intro e he
    simp only [Command.entries, List.mem_append, List.mem_cons, List.not_mem_nil, or_false] at he
    rcases he with (((rfl | rfl) | he) | he) | rfl
    · exact ⟨hKey 1 (by decide), hText c.tool (by simp [texts])⟩
    · exact ⟨hKey 2 (by decide), hText c.input (by simp [texts])⟩
    · exact hNamed 3 (hKey 3 (by decide)) c.choice (by simp [texts]) e he
    · exact hNamed 4 (hKey 4 (by decide)) c.label (by simp [texts]) e he
    · exact ⟨hKey 5 (by decide), Nat.lt_trans h.2 hWide, fun t ht => hText t (by simp [texts, ht])⟩

/-- The form of a command ends where it does by itself, so that lists of commands can be taken
apart. -/
theorem selfDelimiting_canonical : SelfDelimiting Addressable canonical := by
  rw [funext canonical_eq_entries]
  exact Value.selfDelimiting.map.comap entries_injective fun _ => Addressable.entries

end Command

namespace Plan

open Cbor

/-- Whether every length in a plan is below 2^63. -/
def Addressable (p : Plan) : Prop := ∀ c ∈ p.toList, c.Addressable

/-- The bodies of plans mark their own ends. -/
theorem selfDelimiting_body :
    SelfDelimiting (fun p : Plan => p.size < limit 8 ∧ p.Addressable) body := by
  have hBody : body = fun p : Plan => Cbor.map ([(1, p.commands)].map fun f =>
      (f.1, optionalArray Command.canonical f.2)) := by
    funext p
    rw [body]
    cases p.commands with
    | none => rfl
    | some commands => rfl
  have hFields : Function.Injective fun p : Plan => [(1, p.commands)] := by
    intro p q h
    obtain ⟨hCommands, -⟩ := List.cons.inj h
    cases p
    cases q
    exact congrArg Plan.mk (congrArg Prod.snd hCommands)
  have hOne : 1 < limit 8 := by decide
  rw [hBody]
  refine Command.selfDelimiting_canonical.list.map.comap hFields fun p hp => ⟨hOne, fun f hf => ?_⟩
  obtain rfl := List.mem_singleton.mp hf
  exact ⟨hOne, hp⟩

/-- A plan has a canonical form when it has few enough commands, and its body is that form. -/
theorem canonical_eq_ok {p : Plan} {form : Text} (h : p.canonical = .ok form) :
    p.size ≤ maxCommands ∧ form = p.body := by
  rw [canonical] at h
  split at h
  · cases h
  · rename_i hSize
    exact ⟨Nat.not_lt.mp hSize, (Except.ok.inj h).symm⟩

/-- The canonical form identifies a plan. Of two forms one begins with the other only when the plans
are the same, so different plans have different forms, and one digest only where the hash has
one value for two forms. -/
theorem eq_of_canonical_prefix {p q : Plan} {form form' : Text} (hp : p.canonical = .ok form)
    (hq : q.canonical = .ok form') (hpFits : p.Addressable) (hqFits : q.Addressable) :
    (form <+: form' → p = q) ∧ (p ≠ q → form ≠ form') ∧
      (p.digest = q.digest →
        p = q ∨ form ≠ form' ∧ Blake2b.sum256 form = Blake2b.sum256 form') := by
  obtain ⟨hSize, rfl⟩ := canonical_eq_ok hp
  obtain ⟨hSize', rfl⟩ := canonical_eq_ok hq
  have hLimit : maxCommands < limit 8 := by decide
  have hPrefix : p.body <+: q.body → p = q := by
    rintro ⟨more, hMore⟩
    have hSame : p.body ++ more = q.body ++ [] := hMore.trans (List.append_nil _).symm
    exact (selfDelimiting_body ⟨Nat.lt_of_le_of_lt hSize hLimit, hpFits⟩
      ⟨Nat.lt_of_le_of_lt hSize' hLimit, hqFits⟩ hSame).1
  have hDiffer : p ≠ q → p.body ≠ q.body := fun hNe hSame => hNe (hPrefix (hSame ▸ List.prefix_rfl))
  refine ⟨hPrefix, hDiffer, fun hDigest => ?_⟩
  by_cases hEqual : p = q
  · exact Or.inl hEqual
  · rw [digest, digest, hp, hq] at hDigest
    exact Or.inr ⟨hDiffer hEqual, Except.ok.inj hDigest⟩

/-- A plan of one command, whose tool is called by a byte that is no UTF-8. -/
def namedPlan (choice label : Text) : Plan := ⟨some [⟨[255], [], choice, label, none⟩]⟩

/-- Names of a few hundred bytes are far below the bound. -/
theorem addressable_namedPlan {choice label : Text} (hChoice : choice.length < 256)
    (hLabel : label.length < 256) : (namedPlan choice label).Addressable := by
  have hShort : ∀ n < 256, n < Command.lengthLimit := fun n hn => Nat.lt_trans hn (by decide)
  refine List.forall_mem_singleton.mpr ⟨?_, hShort 0 (by decide)⟩
  simp only [Command.texts, List.forall_mem_cons]
  exact ⟨hShort 1 (by decide), hShort 0 (by decide), hShort _ hChoice, hShort _ hLabel,
    List.forall_mem_nil _⟩

/-- One text as the choice and as the label of a command. -/
theorem eq_of_canonical_prefix_namedPlan :
    (namedPlan [97] []).canonical = .ok (namedPlan [97] []).body ∧
      (namedPlan [] [97]).canonical = .ok (namedPlan [] [97]).body ∧
      (namedPlan [97] []).Addressable ∧ (namedPlan [] [97]).Addressable ∧
      ¬ (namedPlan [97] []).body <+: (namedPlan [] [97]).body := by
  have hChoice : (namedPlan [97] []).Addressable := addressable_namedPlan (by simp) (by simp)
  have hLabel : (namedPlan [] [97]).Addressable := addressable_namedPlan (by simp) (by simp)
  have hIdentified := eq_of_canonical_prefix rfl rfl hChoice hLabel
  exact ⟨rfl, rfl, hChoice, hLabel, fun hPrefix => absurd (hIdentified.1 hPrefix) (by decide)⟩

end Plan

end Runsheet

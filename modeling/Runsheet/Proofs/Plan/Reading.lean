import Runsheet.Proofs.Text.Utf8
import Runsheet.Proofs.Plan.File

/-! What a plan that is read from any file keeps to: its texts are UTF-8 and its lists of arguments
are short. A plan that keeps to neither can still be written. -/
namespace Runsheet

open Text

namespace Cbor

section rows

variable {α : Type} {read : Text → Option (α × Text)} {P : α → Prop} {t rest : Text} {as : List α}

/-- Things that are read in a row all have what each of them has, and are as many as asked for. -/
theorem times_all (h : ∀ t a rest, read t = some (a, rest) → P a) {n : Nat}
    (hTimes : times read n t = some (as, rest)) : as.length = n ∧ ∀ a ∈ as, P a := by
  induction n generalizing t as rest with
  | zero =>
      cases hTimes
      exact ⟨rfl, nofun⟩
  | succ n ih =>
      obtain ⟨⟨a, t'⟩, hRead, hTimes⟩ := Option.bind_eq_some_iff.mp hTimes
      obtain ⟨⟨as, t''⟩, hMore, hTimes⟩ := Option.bind_eq_some_iff.mp hTimes
      cases hTimes
      obtain ⟨hLength, hAll⟩ := ih hMore
      exact ⟨congrArg (· + 1) hLength, List.forall_mem_cons.mpr ⟨h t a t' hRead, hAll⟩⟩

/-- What every element that is read has, all elements up to the break have. By induction on the
fuel, which bounds their number. -/
theorem untilBreak_all (h : ∀ t a rest, read t = some (a, rest) → P a) {fuel : Nat}
    (hUntil : untilBreak read fuel t = some (as, rest)) : ∀ a ∈ as, P a := by
  induction fuel generalizing t as rest with
  | zero =>
      cases t with
      | nil => exact nomatch hUntil
      | cons b t =>
          rw [untilBreak] at hUntil
          split at hUntil
          · cases hUntil
            nofun
          · exact nomatch hUntil
  | succ fuel ih =>
      cases t with
      | nil => exact nomatch hUntil
      | cons b t =>
          rw [untilBreak] at hUntil
          split at hUntil
          · cases hUntil
            nofun
          · obtain ⟨⟨a, t'⟩, hRead, hUntil⟩ := Option.bind_eq_some_iff.mp hUntil
            obtain ⟨⟨as, t''⟩, hMore, hUntil⟩ := Option.bind_eq_some_iff.mp hUntil
            cases hUntil
            exact List.forall_mem_cons.mpr ⟨h (b :: t) a t' hRead, ih hMore⟩

/-- The members of pairs are members of the list. -/
theorem pairs_all {ps : List (α × α)} (hPairs : pairs as = some ps) (h : ∀ a ∈ as, P a) :
    ∀ p ∈ ps, P p.1 ∧ P p.2 := by
  induction as using pairs.induct generalizing ps with
  | case1 =>
      cases hPairs
      nofun
  | case2 => exact nomatch hPairs
  | case3 a b as ih =>
      obtain ⟨ps, hMore, rfl⟩ := Option.map_eq_some_iff.mp hPairs
      obtain ⟨ha, h⟩ := List.forall_mem_cons.mp h
      obtain ⟨hb, h⟩ := List.forall_mem_cons.mp h
      exact List.forall_mem_cons.mpr ⟨⟨ha, hb⟩, ih hMore h⟩

/-- What is made of things one by one has what each of them has. -/
theorem mapM_all {β : Type} {make : α → Option β} {Q : β → Prop} {bs : List β}
    (h : ∀ a ∈ as, ∀ b, make a = some b → Q b) (hMake : as.mapM make = some bs) :
    bs.length = as.length ∧ ∀ b ∈ bs, Q b := by
  induction as generalizing bs with
  | nil =>
      cases hMake
      exact ⟨rfl, nofun⟩
  | cons a as ih =>
      rw [List.mapM_cons] at hMake
      obtain ⟨b, hb, hMake⟩ := Option.bind_eq_some_iff.mp hMake
      obtain ⟨bs, hMore, hMake⟩ := Option.bind_eq_some_iff.mp hMake
      cases hMake
      obtain ⟨ha, h⟩ := List.forall_mem_cons.mp h
      obtain ⟨hLength, hAll⟩ := ih h hMore
      exact ⟨congrArg (· + 1) hLength, List.forall_mem_cons.mpr ⟨ha b hb, hAll⟩⟩

end rows

/-- No array in an item has more elements than a reader allows. Keys do not count, since no field has
an array for its key. -/
inductive Item.Short : Item → Prop
  | unsigned {n : Nat} : Short (.unsigned n)
  | negative {n : Nat} : Short (.negative n)
  | bytes {chunks : List Text} : Short (.bytes chunks)
  | text {chunks : List Text} : Short (.text chunks)
  | array {items : List Item} (hCount : items.length ≤ maxElements) (h : ∀ i ∈ items, Short i) :
      Short (.array items)
  | map {entries : List (Item × Item)} (h : ∀ e ∈ entries, Short e.2) : Short (.map entries)
  | tag {number : Nat} {content : Item} (h : Short content) : Short (.tag number content)
  | simple {value : Nat} : Short (.simple value)
  | float {bits : Nat} : Short (.float bits)

section items

variable {t rest : Text} {i : Item}

/-- Elements are counted in advance or read up to a break. Either way there are no more of them than
the reader accepts. -/
theorem elements_all {read : Text → Option (Item × Text)} {P : Item → Prop}
    (h : ∀ t i rest, read t = some (i, rest) → P i) {perEntry : Nat} {argument : Argument}
    {items : List Item} (hElements : elements read perEntry argument t = some (items, rest)) :
    items.length ≤ maxElements * perEntry ∧ ∀ i ∈ items, P i := by
  cases argument with
  | value n width =>
      rw [elements] at hElements
      split at hElements
      · cases hElements
      · rename_i hCount
        obtain ⟨hLength, hAll⟩ := times_all h hElements
        rw [hLength]
        exact ⟨Nat.mul_le_mul_right perEntry (Nat.not_lt.mp hCount), hAll⟩
  | openEnded =>
      rw [elements] at hElements
      obtain ⟨⟨items, rest⟩, hUntil, hElements⟩ := Option.bind_eq_some_iff.mp hElements
      dsimp only at hElements
      split at hElements
      · cases hElements
      · rename_i hCount
        cases hElements
        exact ⟨Nat.not_lt.mp hCount, untilBreak_all h hUntil⟩

/-- A simple value or a float has no elements to count. -/
theorem primitive_short {argument : Argument} (h : primitive argument t = some (i, rest)) :
    i.Short := by
  unfold primitive at h
  split at h
  · exact nomatch h
  · cases h
    exact .simple
  · split at h
    · exact nomatch h
    · cases h
      exact .simple
  · cases h
    exact .float

/-- Whatever is read as an item has short arrays only. -/
theorem item_short {room : Nat} {tagged : Bool} (h : item room tagged t = some (i, rest)) :
    i.Short := by
  fun_induction item room tagged t generalizing i rest
  -- Numbers and strings have no elements.
  case case2 =>
    cases h
    exact .unsigned
  case case4 =>
    cases h
    exact .negative
  case case6 =>
    obtain ⟨_, -, h⟩ := Option.map_eq_some_iff.mp h
    cases h
    exact .bytes
  case case7 =>
    obtain ⟨_, -, h⟩ := Option.map_eq_some_iff.mp h
    cases h
    exact .text
  -- An array.
  case case9 ih =>
    obtain ⟨⟨items, rest⟩, hElements, h⟩ := Option.map_eq_some_iff.mp h
    cases h
    obtain ⟨hCount, hAll⟩ := elements_all (fun t _ _ hItem => ih t hItem) hElements
    exact .array (by omega) hAll
  -- A map.
  case case11 ih =>
    obtain ⟨⟨items, rest⟩, hElements, h⟩ := Option.bind_eq_some_iff.mp h
    obtain ⟨entries, hPairs, h⟩ := Option.bind_eq_some_iff.mp h
    cases h
    obtain ⟨-, hAll⟩ := elements_all (fun t _ _ hItem => ih t hItem) hElements
    exact .map fun e he => (pairs_all hPairs hAll e he).2
  -- A tag, the first one or one inside of another.
  case case13 ih | case15 ih =>
    obtain ⟨⟨content, rest⟩, hItem, h⟩ := Option.map_eq_some_iff.mp h
    cases h
    exact .tag (ih hItem)
  case case16 => exact primitive_short h
  all_goals cases h

/-- No item that can be read has more elements than the bound, however deep it lies. -/
theorem parse_short (h : parse t = some i) : i.Short := by
  unfold parse at h
  split at h
  · rename_i hItem
    cases h
    exact item_short hItem
  · cases h

namespace Item

/-- The item inside the tags of a short one is short. -/
theorem Short.untagged {j : Item} (h : i.Short) (hUntagged : i.untagged? = some j) : j.Short := by
  fun_induction untagged? i
  case case1 =>
    cases hUntagged
    exact .text
  case case6 ih =>
    cases h with
    | tag h => exact ih h hUntagged
  case case7 =>
    cases hUntagged
    exact h
  all_goals cases hUntagged

/-- An item is used as a text only after its bytes have been checked. -/
theorem text?_isUtf8 (h : i.text? = some t) : t.isUtf8 = true := by
  obtain ⟨j, -, h⟩ := Option.bind_eq_some_iff.mp h
  split at h
  · cases h
    rfl
  · split at h
    · split at h
      · rename_i hChunks
        cases h
        exact isUtf8_flatten (List.all_eq_true.mp hChunks)
      · cases h
    · cases h

/-- A list that is made of an item has few enough elements, each made of a short item. -/
theorem list?_all {α : Type} {element : Item → Option α} {P : α → Prop} {values : Option (List α)}
    (hShort : i.Short) (h : ∀ j, j.Short → ∀ a, element j = some a → P a)
    (hList : i.list? element = some values) :
    (values.getD []).length ≤ maxElements ∧ ∀ a ∈ values.getD [], P a := by
  obtain ⟨j, hUntagged, hList⟩ := Option.bind_eq_some_iff.mp hList
  have hInner := hShort.untagged hUntagged
  split at hList
  · cases hList
    exact ⟨Nat.zero_le _, nofun⟩
  · split at hList
    · obtain ⟨as, hMake, hList⟩ := Option.bind_eq_some_iff.mp hList
      cases hList
      cases hInner with
      | array hCount hItems =>
          obtain ⟨hLength, hAll⟩ := mapM_all (fun j hj a => h j (hItems j hj) a) hMake
          exact ⟨hLength ▸ hCount, hAll⟩
    · cases hList

/-- The fields of a short record are short. -/
theorem fields?_short {known : List Nat} {fields : List (Key × Item)} (hShort : i.Short)
    (h : i.fields? known = some fields) : ∀ f ∈ fields, f.2.Short := by
  obtain ⟨j, hUntagged, h⟩ := Option.bind_eq_some_iff.mp h
  have hInner := hShort.untagged hUntagged
  split at h
  · cases h
    nofun
  · split at h
    · obtain ⟨made, hMake, h⟩ := Option.bind_eq_some_iff.mp h
      split at h
      · cases h
        cases hInner with
        | map hEntries =>
            refine (mapM_all (fun e he f hf => ?_) hMake).2
            obtain ⟨key, -, rfl⟩ := Option.map_eq_some_iff.mp hf
            exact hEntries e he
      · cases h
    · cases h

end Item

theorem field?_short {fields : List (Key × Item)} (h : ∀ f ∈ fields, f.2.Short) {n : Nat}
    (hField : field? fields n = some i) : i.Short := by
  obtain ⟨front, back, rfl, -⟩ := List.lookup_eq_some_iff.mp hField
  exact h (.number n, i) (by simp)

end items

end Cbor

namespace Plan

/-- What is made of an item as a command has texts in UTF-8 and few enough arguments. -/
theorem commandOfItem?_readable {i : Cbor.Item} (hShort : i.Short) {c : Command}
    (h : commandOfItem? i = some c) :
    (∀ t ∈ c.texts, t.isUtf8 = true) ∧ (c.args.getD []).length ≤ Cbor.maxElements := by
  obtain ⟨fields, hFields, h⟩ := Option.bind_eq_some_iff.mp h
  have hShortFields := Cbor.Item.fields?_short hShort hFields
  extract_lets textField finish at h
  have hText : ∀ n t, textField n = some t → t.isUtf8 = true := by
    intro n t ht
    dsimp only [textField] at ht
    split at ht
    · exact Cbor.Item.text?_isUtf8 ht
    · cases ht
      rfl
  have hFinish : ∀ args : Option (List Text), (args.getD []).length ≤ Cbor.maxElements →
      (∀ t ∈ args.getD [], t.isUtf8 = true) → finish args = some c →
      (∀ t ∈ c.texts, t.isUtf8 = true) ∧ (c.args.getD []).length ≤ Cbor.maxElements := by
    intro args hCount hUtf8 h
    obtain ⟨tool, hTool, h⟩ := Option.bind_eq_some_iff.mp h
    obtain ⟨input, hInput, h⟩ := Option.bind_eq_some_iff.mp h
    obtain ⟨choice, hChoice, h⟩ := Option.bind_eq_some_iff.mp h
    obtain ⟨label, hLabel, h⟩ := Option.bind_eq_some_iff.mp h
    cases h
    simp only [Command.texts, List.forall_mem_cons]
    exact ⟨⟨hText 1 tool hTool, hText 2 input hInput, hText 3 choice hChoice, hText 4 label hLabel,
      hUtf8⟩, hCount⟩
  split at h
  · rename_i value hField
    obtain ⟨args, hArgs, h⟩ := Option.bind_eq_some_iff.mp h
    obtain ⟨hCount, hUtf8⟩ := Cbor.Item.list?_all (Cbor.field?_short hShortFields hField)
      (fun _ _ _ => Cbor.Item.text?_isUtf8) hArgs
    exact hFinish args hCount hUtf8 h
  · exact hFinish none (Nat.zero_le _) (List.forall_mem_nil _) h

/-- Whether a reader takes the commands of a plan: their texts are UTF-8 and none has too many
arguments. -/
def Readable (p : Plan) : Prop :=
  ∀ c ∈ p.toList, (∀ t ∈ c.texts, t.isUtf8 = true) ∧ (c.args.getD []).length ≤ Cbor.maxElements

/-- A plan that is read from a body can be written and read again: its texts are in UTF-8 and its
lists within the bounds. -/
theorem readable_ofBody? {body : Text} {p : Plan} (h : ofBody? body = some p) : p.Readable := by
  obtain ⟨i, hParse, h⟩ := Option.bind_eq_some_iff.mp h
  obtain ⟨fields, hFields, h⟩ := Option.bind_eq_some_iff.mp h
  have hShortFields := Cbor.Item.fields?_short (Cbor.parse_short hParse) hFields
  split at h
  · rename_i value hField
    obtain ⟨commands, hCommands, h⟩ := Option.bind_eq_some_iff.mp h
    cases h
    exact (Cbor.Item.list?_all (Cbor.field?_short hShortFields hField)
      (fun _ hj _ => commandOfItem?_readable hj) hCommands).2
  · cases h
    nofun

/-- The file of a plan is read back as that plan exactly when a reader takes its commands. -/
theorem ofFile_eq_ok_iff {p : Plan} {f : Text} (hFile : p.toFile = .ok f) :
    ofFile f = .ok ⟨p, Blake2b.sum256 p.body, []⟩ ↔ p.Readable := by
  obtain ⟨hSize, hLength, -, rfl⟩ := toFile_eq_ok hFile
  rw [ofFile_preamble hLength, if_neg (Nat.lt_irrefl _), List.take_length, List.drop_length]
  constructor
  · intro h
    cases hBody : ofBody? p.body with
    | none =>
        rw [hBody] at h
        cases h
    | some q =>
        rw [hBody] at h
        cases h
        exact readable_ofBody? hBody
  · intro h
    rw [p.ofBody?_body hSize hLength (fun c hc => (h c hc).2) (fun c hc => (h c hc).1)]
    rfl

end Plan

end Runsheet

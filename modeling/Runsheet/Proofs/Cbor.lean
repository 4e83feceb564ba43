import Runsheet.Cbor

/-! What is written as a data item is read back, whatever follows it. -/
namespace Runsheet

namespace Cbor

section numbers

/-- As many bytes as asked for, however small the number. -/
@[simp] theorem length_bigEndian (width n : Nat) : (bigEndian width n).length = width := by
  induction width generalizing n with
  | zero => rfl
  | succ width ih => simp [bigEndian, ih]

/-- A byte at the end counts for itself, and what stands before it is moved up by one place. -/
theorem number_append (t : Text) (b : UInt8) : number (t ++ [b]) = number t * 256 + b.toNat := by
  simp [number]

def limit : (width : Nat) → Nat
  | 0 => 1
  | width + 1 => limit width * 256

/-- A number that fits the width is read back. -/
theorem number_bigEndian {width n : Nat} (h : n < limit width) : number (bigEndian width n) = n := by
  induction width generalizing n with
  | zero =>
      have hZero : n = 0 := Nat.lt_one_iff.mp h
      rw [hZero]
      rfl
  | succ width ih =>
      have hQuotient : n / 256 < limit width := (Nat.div_lt_iff_lt_mul (by decide)).mpr h
      have hByte : (n % 256).toUInt8.toNat = n % 256 := by simp
      rw [bigEndian, number_append, ih hQuotient, hByte]
      omega

end numbers

section heads

variable {major n : Nat} {rest : Text}

/-- Both parts can be got back from the first byte of a head, the major type from its upper three
bits and the rest from its lower five. -/
theorem initialByte_parts {info : Nat} (hMajor : major < 8) (hInfo : info < 32) :
    (initialByte major info).toNat / 32 = major ∧ (initialByte major info).toNat % 32 = info := by
  have hByte : (initialByte major info).toNat = major * 32 + info := by
    simp [initialByte]
    omega
  omega

/-- A head of each greater size is read back. -/
theorem readHead_sized {info width : Nat} (hMajor : major < 8) (hn : n < limit width)
    (hInfo : info = 24 ∧ width = 1 ∨ info = 25 ∧ width = 2 ∨ info = 26 ∧ width = 4 ∨
      info = 27 ∧ width = 8) :
    readHead (initialByte major info :: bigEndian width n ++ rest) =
      some (major, .value n width, rest) := by
  obtain ⟨hDiv, hMod⟩ := @initialByte_parts major info hMajor (by omega)
  have hSized : (if (bigEndian width n ++ rest).length < width then none
      else some (major, Argument.value (number ((bigEndian width n ++ rest).take width)) width,
        (bigEndian width n ++ rest).drop width)) = some (major, .value n width, rest) := by
    rw [List.take_left' (length_bigEndian width n), List.drop_left' (length_bigEndian width n),
      number_bigEndian hn, if_neg (by simp)]
  rw [List.cons_append]
  simp only [readHead, hDiv, hMod]
  rcases hInfo with ⟨rfl, rfl⟩ | ⟨rfl, rfl⟩ | ⟨rfl, rfl⟩ | ⟨rfl, rfl⟩ <;> exact hSized

/-- A head is read back with its major type and its argument. -/
theorem readHead_head (major : Nat) (hMajor : major < 8) (hn : n < limit 8) (rest : Text) :
    ∃ width, readHead (head major n ++ rest) = some (major, .value n width, rest) := by
  simp only [head]
  split
  · rename_i hSmall
    obtain ⟨hDiv, hMod⟩ := @initialByte_parts major n hMajor (by omega)
    refine ⟨0, ?_⟩
    simp only [List.cons_append, List.nil_append, readHead, hDiv, hMod, if_pos hSmall]
  split
  · rename_i hByte
    exact ⟨1, readHead_sized hMajor hByte (by simp)⟩
  split
  · rename_i hBytes
    exact ⟨2, readHead_sized hMajor hBytes (by simp)⟩
  split
  · rename_i hBytes
    exact ⟨4, readHead_sized hMajor hBytes (by simp)⟩
  · exact ⟨8, readHead_sized hMajor hn (by simp)⟩

end heads

/-- Bytes that are read as an item, whatever follows them. -/
def Reads (room : Nat) (encoded : Text) (i : Item) : Prop :=
  encoded.length < limit 8 → ∀ rest, item room false (encoded ++ rest) = some (i, rest)

section items

variable {room : Nat} {α : Type}

/-- What stands in front is taken and what comes after it is left, byte for byte. -/
theorem take_append (t rest : Text) : take t.length (t ++ rest) = some (t, rest) := by
  rw [take, if_neg (by simp), List.take_left, List.drop_left]

theorem reads_null : Reads room null (.simple 22) := by
  intro _ rest
  rw [item]
  rfl

/-- A number that fits eight bytes is read back from its shortest head, and nothing behind it is
touched. -/
theorem reads_unsigned {n : Nat} (hn : n < limit 8) : Reads room (head 0 n) (.unsigned n) := by
  intro _ rest
  obtain ⟨width, hHead⟩ := readHead_head 0 (by decide) hn rest
  rw [item, hHead]
  rfl

/-- Any bytes under the head of a text are read back, in UTF-8 or not; that is looked at only when
the item is used as a text. -/
theorem reads_text (t : Text) : Reads room (text t) (.text [t]) := by
  intro hLength rest
  have hn : t.length < limit 8 := by
    simp only [text, List.length_append] at hLength
    omega
  obtain ⟨width, hHead⟩ := readHead_head 3 (by decide) hn (t ++ rest)
  rw [text, List.append_assoc, item, hHead]
  simp only [chunks, take_append, Option.map_some]

/-- Things that are read one by one are read in a row. -/
theorem times_read {read : Text → Option (α × Text)} {things : List (Text × α)}
    (h : ∀ x ∈ things, ∀ rest, read (x.1 ++ rest) = some (x.2, rest)) (rest : Text) :
    times read things.length (things.flatMap Prod.fst ++ rest) =
      some (things.map Prod.snd, rest) := by
  induction things with
  | nil => rfl
  | cons x things ih =>
      have hMore := ih fun y hy => h y (List.mem_cons_of_mem x hy)
      simp only [List.length_cons, times, List.flatMap_cons, List.append_assoc,
        h x List.mem_cons_self, Option.bind_eq_bind, Option.bind_some, hMore]
      rfl

theorem length_le_flatMap {things : List (Text × α)} {x : Text × α} (h : x ∈ things) :
    x.1.length ≤ (things.flatMap Prod.fst).length := by
  induction things with
  | nil => exact nomatch h
  | cons y things ih =>
      rw [List.flatMap_cons, List.length_append]
      rcases List.mem_cons.mp h with rfl | h
      · omega
      · have hMore := ih h
        omega

/-- Items that are read one by one, all of them short enough together, are read in a row. -/
theorem times_item {things : List (Text × Item)} (h : ∀ x ∈ things, Reads room x.1 x.2)
    (hLength : (things.flatMap Prod.fst).length < limit 8) (rest : Text) :
    times (item room false) things.length (things.flatMap Prod.fst ++ rest) =
      some (things.map Prod.snd, rest) := by
  refine times_read (fun x hx more => ?_) rest
  have hShort := length_le_flatMap hx
  exact h x hx (by omega) more

/-- An array is read back when its elements are, one level deeper, and it does not have more of them
than readers accept. -/
theorem reads_array {things : List (Text × Item)} (h : ∀ x ∈ things, Reads room x.1 x.2)
    (hCount : things.length ≤ maxElements) :
    Reads (room + 1) (array (things.map Prod.fst)) (.array (things.map Prod.snd)) := by
  intro hLength rest
  have hArray : array (things.map Prod.fst) =
      head 4 things.length ++ things.flatMap Prod.fst := by
    rw [array, List.length_map, List.flatMap_def]
  rw [hArray] at hLength ⊢
  rw [List.length_append] at hLength
  have hn : things.length < limit 8 := Nat.lt_of_le_of_lt hCount (by decide)
  obtain ⟨width, hHead⟩ := readHead_head 4 (by decide) hn (things.flatMap Prod.fst ++ rest)
  rw [List.append_assoc, item, hHead]
  simp only [elements, if_neg (Nat.not_lt.mpr hCount), Nat.mul_one,
    times_item h (by omega) rest, Option.map_some]

def alternating (fields : List (Nat × Text × Item)) : List (Text × Item) :=
  fields.flatMap fun f => [(head 0 f.1, .unsigned f.1), f.2]

theorem length_alternating (fields : List (Nat × Text × Item)) :
    (alternating fields).length = fields.length * 2 := by
  induction fields with
  | nil => rfl
  | cons f fields ih =>
      simp only [alternating, List.flatMap_cons, List.length_append, List.length_cons,
        List.length_nil] at ih ⊢
      omega

/-- Keys and values that alternate are put into pairs again without one left over. -/
theorem pairs_alternating (fields : List (Nat × Text × Item)) :
    pairs ((alternating fields).map Prod.snd) =
      some (fields.map fun f => (.unsigned f.1, f.2.2)) := by
  induction fields with
  | nil => rfl
  | cons f fields ih =>
      rw [alternating] at ih
      simp only [alternating, List.flatMap_cons, List.cons_append, List.nil_append, List.map_cons,
        pairs, ih, Option.map_some]

/-- A map is written as its head and then the keys and values in turn, so that it is read like an
array of twice the length. -/
theorem map_eq_alternating (fields : List (Nat × Text × Item)) :
    map (fields.map fun f => (f.1, f.2.1)) =
      head 5 fields.length ++ (alternating fields).flatMap Prod.fst := by
  rw [map, List.length_map]
  refine congrArg (head 5 fields.length ++ ·) ?_
  induction fields with
  | nil => rfl
  | cons f fields ih =>
      simp only [List.map_cons, List.flatMap_cons, ih, alternating, List.cons_append,
        List.nil_append, List.append_assoc]

/-- A map is read back when its values are and every key fits a head. Like an array it takes one
level of nesting. -/
theorem reads_map {fields : List (Nat × Text × Item)}
    (h : ∀ f ∈ fields, f.1 < limit 8 ∧ Reads room f.2.1 f.2.2)
    (hCount : fields.length ≤ maxElements) :
    Reads (room + 1) (map (fields.map fun f => (f.1, f.2.1)))
      (.map (fields.map fun f => (.unsigned f.1, f.2.2))) := by
  intro hLength rest
  rw [map_eq_alternating] at hLength ⊢
  rw [List.length_append] at hLength
  have hReads : ∀ x ∈ alternating fields, Reads room x.1 x.2 := by
    intro x hx
    obtain ⟨f, hf, hx⟩ := List.mem_flatMap.mp hx
    obtain ⟨hKey, hValue⟩ := h f hf
    simp only [List.mem_cons, List.not_mem_nil, or_false] at hx
    rcases hx with rfl | rfl
    · exact reads_unsigned hKey
    · exact hValue
  have hn : fields.length < limit 8 := Nat.lt_of_le_of_lt hCount (by decide)
  obtain ⟨width, hHead⟩ :=
    readHead_head 5 (by decide) hn ((alternating fields).flatMap Prod.fst ++ rest)
  rw [List.append_assoc, item, hHead]
  -- Keys and values are read as one row of items, and only then put in pairs.
  have hTimes := times_item hReads (by omega) rest
  rw [length_alternating] at hTimes
  simp only [elements, if_neg (Nat.not_lt.mpr hCount), hTimes, Option.bind_eq_bind,
    Option.bind_some, pairs_alternating]
  rfl

/-- The bytes and the item of a list that may be missing. -/
def listForm (form : α → Text × Item) : Option (List α) → Text × Item
  | some values => (array (values.map fun v => (form v).1), .array (values.map fun v => (form v).2))
  | none => (null, .simple 22)

/-- A list and the absence of one are read back in the form they are written in, an absent list as
the item for nothing. -/
theorem reads_listForm {form : α → Text × Item} {values : Option (List α)}
    (h : ∀ v ∈ values.getD [], Reads room (form v).1 (form v).2)
    (hCount : (values.getD []).length ≤ maxElements) :
    Reads (room + 1) (listForm form values).1 (listForm form values).2 := by
  cases values with
  | none => exact reads_null
  | some values =>
      have hArray := @reads_array room (values.map form) (by simpa using h) (by simpa using hCount)
      simpa [listForm, Function.comp_def] using hArray

/-- A body that is one item is read as that item. -/
theorem parse_of_reads {encoded : Text} {i : Item} (h : Reads maxDepth encoded i)
    (hLength : encoded.length < limit 8) : parse encoded = some i := by
  have hItem := h hLength []
  rw [List.append_nil] at hItem
  rw [parse, hItem]

end items

section decoding

variable {α : Type}

/-- What is made of things one by one is made of them all. -/
theorem mapM_map {β γ : Type} {form : α → β} {make : β → Option γ} {result : α → γ}
    {values : List α} (h : ∀ v ∈ values, make (form v) = some (result v)) :
    (values.map form).mapM make = some (values.map result) := by
  induction values with
  | nil => rfl
  | cons v values ih =>
      have hMore := ih fun w hw => h w (List.mem_cons_of_mem v hw)
      simp [h v List.mem_cons_self, hMore]

/-- A list that is there and empty is told apart from one that is missing. -/
theorem list?_listForm {form : α → Text × Item} {values : Option (List α)}
    {element : Item → Option α} (h : ∀ v ∈ values.getD [], element (form v).2 = some v) :
    (listForm form values).2.list? element = some values := by
  cases values with
  | none => rfl
  | some values =>
      have hValues : (values.map fun v => (form v).2).mapM element = some values := by
        simpa using mapM_map h
      simp [listForm, Item.list?, Item.untagged?, Item.isNull, hValues]

/-- Bytes in UTF-8 make an item that is a text. Other bytes can be written but are refused here. -/
theorem text?_text {t : Text} (h : t.isUtf8 = true) : (Item.text [t]).text? = some t := by
  simp [Item.text?, Item.untagged?, Item.isNull, h]

/-- The fields of a record, by their numbers. -/
theorem fields?_map (known : List Nat) {fields : List (Nat × Text × Item)}
    (hSmall : ∀ f ∈ fields, f.1 < 24) (hDistinct : (fields.map Prod.fst).Nodup) :
    (Item.map (fields.map fun f => (.unsigned f.1, f.2.2))).fields? known =
      some (fields.map fun f => (.number f.1, f.2.2)) := by
  have hNodup : ((fields.map fun f => (Key.number f.1, f.2.2)).map Prod.fst).Nodup := by
    rw [List.map_map, List.nodup_iff_pairwise_ne, List.pairwise_map]
    refine (List.pairwise_map.mp hDistinct).imp fun {f g} hNe hEq => hNe ?_
    exact Int.ofNat.inj (Key.number.inj hEq)
  have hKey : ∀ f ∈ fields, Key.ofItem? known (.unsigned f.1) = some (.number f.1) := by
    intro f hf
    have hLimit : f.1 < 0x8000000000000000 := Nat.lt_trans (hSmall f hf) (by decide)
    simp only [Key.ofItem?, signed64, if_pos hLimit]
  simp only [Item.fields?, Item.untagged?, Item.isNull, Option.bind_eq_bind, Option.bind_some]
  rw [@mapM_map _ _ _ _ _ (fun f => (Key.number f.1, f.2.2)) fields]
  · exact if_pos hNodup
  · intro f hf
    simp only [hKey f hf, Option.map_some]

/-- A field is looked up under its number like in an association list, the first entry counting. -/
theorem field?_map (fields : List (Nat × Text × Item)) (n : Nat) :
    field? (fields.map fun f => (.number f.1, f.2.2)) n = (fields.lookup n).map Prod.snd := by
  induction fields with
  | nil => rfl
  | cons f fields ih =>
      obtain ⟨key, form⟩ := f
      have hKey : (Key.number n == Key.number key) = (n == key) := by
        rw [Bool.eq_iff_iff, beq_iff_eq, beq_iff_eq, Key.number.injEq, Int.natCast_inj]
      rw [field?] at ih ⊢
      simp only [List.map_cons, List.lookup_cons, hKey, ih]
      split <;> rfl

end decoding

end Cbor

end Runsheet

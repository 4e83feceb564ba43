import Runsheet.Plan.File
import Runsheet.Proofs.Cbor

/-! A plan file gives back the plan it was written for, and no part of it passes for a file. -/
namespace Runsheet

open Cbor

namespace Command

def texts (c : Command) : List Text := c.tool :: c.input :: c.choice :: c.label :: c.args.getD []

def textForm (t : Text) : Text × Item := (Cbor.text t, .text [t])

def namedFields (key : Nat) (t : Text) : List (Nat × Text × Item) :=
  if t.isEmpty then [] else [(key, textForm t)]

def fields (c : Command) : List (Nat × Text × Item) :=
  [(1, textForm c.tool), (2, textForm c.input)] ++ namedFields 3 c.choice ++ namedFields 4 c.label ++
    [(5, listForm textForm c.args)]

def item (c : Command) : Item := .map (c.fields.map fun f => (.unsigned f.1, f.2.2))

/-- The canonical form is the map of the fields that are not left out, in the order of their
numbers. -/
theorem canonical_eq (c : Command) : c.canonical = Cbor.map (c.fields.map fun f => (f.1, f.2.1)) := by
  have hNamed : ∀ key t, (if t.isEmpty then [] else [(key, Cbor.text t)]) =
      (namedFields key t).map fun f => (f.1, f.2.1) := by
    intro key t
    rw [namedFields]
    split <;> rfl
  rw [canonical, fields]
  cases hArgs : c.args <;>
    simp only [hNamed, listForm, List.map_append, List.map_cons, List.map_nil, textForm]

/-- The keys of a command are small and all different. -/
theorem keys_fields (c : Command) :
    (∀ f ∈ c.fields, f.1 < 24) ∧ (c.fields.map Prod.fst).Nodup ∧ c.fields.length ≤ 5 := by
  simp only [fields, namedFields]
  split <;> split <;> simp

/-- A command is read back as its item. -/
theorem reads_canonical (c : Command) (room : Nat) (hArgs : (c.args.getD []).length ≤ maxElements) :
    Reads (room + 2) c.canonical c.item := by
  obtain ⟨hSmall, -, hCount⟩ := c.keys_fields
  have hText : ∀ key t, ∀ f ∈ namedFields key t, Reads (room + 1) f.2.1 f.2.2 := by
    intro key t f hf
    rw [namedFields] at hf
    split at hf
    · exact nomatch hf
    · obtain rfl := List.mem_singleton.mp hf
      exact reads_text t
  have hReads : ∀ f ∈ c.fields, Reads (room + 1) f.2.1 f.2.2 := by
    intro f hf
    simp only [fields, List.mem_append, List.mem_cons, List.not_mem_nil, or_false] at hf
    rcases hf with (((rfl | rfl) | hf) | hf) | rfl
    · exact reads_text c.tool
    · exact reads_text c.input
    · exact hText 3 c.choice f hf
    · exact hText 4 c.label f hf
    · exact reads_listForm (fun t _ => reads_text t) hArgs
  rw [canonical_eq, item]
  refine reads_map (fun f hf => ⟨Nat.lt_trans (hSmall f hf) (by decide), hReads f hf⟩) ?_
  exact Nat.le_trans hCount (by decide)

/-- Where the fields of a command are. -/
theorem lookup_fields (c : Command) :
    c.fields.lookup 1 = some (textForm c.tool) ∧ c.fields.lookup 2 = some (textForm c.input) ∧
      c.fields.lookup 3 = (if c.choice.isEmpty then none else some (textForm c.choice)) ∧
      c.fields.lookup 4 = (if c.label.isEmpty then none else some (textForm c.label)) ∧
      c.fields.lookup 5 = some (listForm textForm c.args) := by
  simp only [fields, namedFields]
  split <;> split <;> simp [List.lookup_cons]

/-- A text that was left out is empty. -/
theorem text_of_named {t : Text} (h : t.isUtf8 = true) :
    (match (if t.isEmpty then none else some (textForm t)).map Prod.snd with
      | some value => value.text?
      | none => some []) = some t := by
  cases t with
  | nil => rfl
  | cons b t => exact text?_text h

/-- A command is made of its item again. -/
theorem commandOfItem?_item (c : Command) (hUtf8 : ∀ t ∈ c.texts, t.isUtf8 = true) :
    Plan.commandOfItem? c.item = some c := by
  obtain ⟨hSmall, hDistinct, -⟩ := c.keys_fields
  obtain ⟨hTool, hInput, hChoice, hLabel, hArgs⟩ := c.lookup_fields
  have hTexts : (listForm textForm c.args).2.list? Item.text? = some c.args :=
    list?_listForm fun t ht => text?_text (hUtf8 t (by simp [texts, ht]))
  rw [Plan.commandOfItem?, item, fields?_map [1, 2, 3, 4, 5] hSmall hDistinct]
  simp only [field?_map, hTool, hInput, hChoice, hLabel, hArgs, Option.map_some, textForm, hTexts,
    text?_text (hUtf8 c.tool (by simp [texts])), text?_text (hUtf8 c.input (by simp [texts])),
    Option.bind_eq_bind, Option.bind_some]
  refine Option.bind_eq_some_iff.mpr ⟨c.choice, text_of_named (hUtf8 c.choice (by simp [texts])), ?_⟩
  exact Option.bind_eq_some_iff.mpr ⟨c.label, text_of_named (hUtf8 c.label (by simp [texts])), rfl⟩

end Command

namespace Plan

def commandForm (c : Command) : Text × Item := (c.canonical, c.item)

def fields (p : Plan) : List (Nat × Text × Item) := [(1, listForm commandForm p.commands)]

def item (p : Plan) : Item := .map (p.fields.map fun f => (.unsigned f.1, f.2.2))

theorem body_eq (p : Plan) : p.body = Cbor.map (p.fields.map fun f => (f.1, f.2.1)) := by
  rw [body, fields]
  cases p.commands <;> rfl

/-- A body is read back as the item of the plan. -/
theorem parse_body (p : Plan) (hSize : p.size ≤ maxCommands) (hLength : p.body.length ≤ maxBodySize)
    (hArgs : ∀ c ∈ p.toList, (c.args.getD []).length ≤ maxElements) :
    parse p.body = some p.item := by
  refine parse_of_reads ?_ (Nat.lt_of_le_of_lt hLength (by decide))
  rw [body_eq, item]
  -- The plan, its list, a command and its list are four levels of the 32 there is room for.
  refine @reads_map 31 p.fields (fun f hf => ?_) (by simp [fields, maxElements])
  obtain rfl := List.mem_singleton.mp hf
  refine ⟨(by decide : 1 < limit 8), @reads_listForm 30 _ _ _ (fun c hc => ?_) (Nat.le_trans hSize (by decide))⟩
  exact c.reads_canonical 28 (hArgs c hc)

/-- A plan is made of its item again. -/
theorem ofItem?_item (p : Plan) (hUtf8 : ∀ c ∈ p.toList, ∀ t ∈ c.texts, t.isUtf8 = true) :
    ofItem? p.item = some p := by
  have hCommands : (listForm commandForm p.commands).2.list? commandOfItem? = some p.commands :=
    list?_listForm fun c hc => c.commandOfItem?_item (hUtf8 c hc)
  have hField : p.fields.lookup 1 = some (listForm commandForm p.commands) := rfl
  rw [ofItem?, item, fields?_map [1] (by simp [fields]) (by simp [fields])]
  simp only [Option.bind_eq_bind, Option.bind_some, field?_map, hField, Option.map_some, hCommands]
  rfl

/-- A body within the bounds of the reader is read back as the plan it was made from. UTF-8 is
needed since every field is used as a text. -/
theorem ofBody?_body (p : Plan) (hSize : p.size ≤ maxCommands) (hLength : p.body.length ≤ maxBodySize)
    (hArgs : ∀ c ∈ p.toList, (c.args.getD []).length ≤ maxElements)
    (hUtf8 : ∀ c ∈ p.toList, ∀ t ∈ c.texts, t.isUtf8 = true) : ofBody? p.body = some p := by
  rw [ofBody?, p.parse_body hSize hLength hArgs, Option.bind_some, p.ofItem?_item hUtf8]

def preamble (size : Nat) : Text := magic ++ littleEndian 2 version ++ littleEndian 4 size

@[simp] theorem length_littleEndian (width n : Nat) : (littleEndian width n).length = width := by
  simp [littleEndian]

/-- Magic number, version and length take up ten bytes, so that the body starts at a fixed place. -/
@[simp] theorem length_preamble (size : Nat) : (preamble size).length = 10 := by
  simp [preamble, show magic.length = 4 from rfl]

/-- A plan that is written has few enough commands and a short enough body. -/
theorem toFile_eq_ok {p : Plan} {f : Text} (h : p.toFile = .ok f) :
    p.size ≤ maxCommands ∧ p.body.length ≤ maxBodySize ∧ p.canonical = .ok p.body ∧
      f = preamble p.body.length ++ p.body := by
  by_cases hSize : p.size > maxCommands
  · have hCanonical : ∃ e, p.canonical = .error e := ⟨_, if_pos hSize⟩
    obtain ⟨e, hCanonical⟩ := hCanonical
    rw [toFile, hCanonical] at h
    exact nomatch h
  have hCanonical : p.canonical = .ok p.body := if_neg hSize
  simp only [toFile, hCanonical] at h
  split at h
  · exact nomatch h
  · rename_i hLength
    exact ⟨Nat.not_lt.mp hSize, Nat.not_lt.mp hLength, hCanonical, (Except.ok.inj h).symm⟩

/-- A file with a good preamble is read by its body. -/
theorem ofFile_preamble {size : Nat} (hSize : size ≤ maxBodySize) (rest : Text) :
    ofFile (preamble size ++ rest) =
      if rest.length < size then .error (.body rest.length)
      else (ofBody? (rest.take size)).elim (.error .content) fun plan =>
        .ok ⟨plan, Blake2b.sum256 (rest.take size), rest.drop size⟩ := by
  have hLong : ¬ (preamble size ++ rest).length < 10 := by simp
  have hFile : preamble size ++ rest =
      magic ++ (littleEndian 2 version ++ (littleEndian 4 size ++ rest)) := by
    simp only [preamble, List.append_assoc]
  have hMagic : (preamble size ++ rest).take 4 = magic := by
    rw [hFile]
    rfl
  have hVersion : number (((preamble size ++ rest).drop 4).take 2).reverse = version := by
    rw [hFile]
    rfl
  have hSizeBytes : ((preamble size ++ rest).drop 6).take 4 = littleEndian 4 size := by
    rw [hFile]
    exact List.take_left' (length_littleEndian 4 size)
  have hNumber : number (((preamble size ++ rest).drop 6).take 4).reverse = size := by
    rw [hSizeBytes, littleEndian, List.reverse_reverse, number_bigEndian]
    exact Nat.lt_of_le_of_lt hSize (by decide)
  have hRest : (preamble size ++ rest).drop 10 = rest := List.drop_left' (length_preamble size)
  simp only [ofFile, if_neg hLong, hMagic, hVersion, hNumber, hRest, ne_eq, not_true_eq_false,
    if_false, if_neg (Nat.not_lt.mpr hSize)]
  cases ofBody? (rest.take size) <;> rfl

/-- A file that ends before its body does is refused. -/
theorem ofFile_cut {size : Nat} {body pre : Text} (hSize : size ≤ maxBodySize)
    (hBody : body.length = size) (hPrefix : pre <+: preamble size ++ body)
    (hCut : pre ≠ preamble size ++ body) : ∃ e, ofFile pre = .error e := by
  by_cases hShort : pre.length < 10
  · exact ⟨.preamble pre.length, if_pos hShort⟩
  have hPreamble : preamble size <+: pre :=
    List.prefix_of_prefix_length_le (List.prefix_append _ _) hPrefix (by rw [length_preamble]; omega)
  obtain ⟨part, rfl⟩ := hPreamble
  have hPart : part <+: body := (List.prefix_append_right_inj _).mp hPrefix
  have hLength : part.length < size := by
    have hLe := hPart.length_le
    have hNe : part.length ≠ body.length := fun hEq => hCut (by rw [hPart.eq_of_length hEq])
    omega
  exact ⟨.body part.length, by rw [ofFile_preamble hSize, if_pos hLength]⟩

/-- A plan file is read back as the plan it was written for, with the hash that names the plan and
with whatever follows left over. Every file cut short is refused. -/
theorem ofFile_toFile {p : Plan} {f : Text} (hFile : p.toFile = .ok f)
    (hUtf8 : ∀ c ∈ p.toList, ∀ t ∈ c.texts, t.isUtf8 = true)
    (hArgs : ∀ c ∈ p.toList, (c.args.getD []).length ≤ 131072) :
    ∃ digest, p.digest = .ok digest ∧ digest = Blake2b.sum256 (f.drop 10) ∧
      (∀ rest, ofFile (f ++ rest) = .ok ⟨p, digest, rest⟩) ∧
      ∀ pre, pre <+: f → pre ≠ f → ∃ e, ofFile pre = .error e := by
  obtain ⟨hSize, hLength, hCanonical, rfl⟩ := toFile_eq_ok hFile
  have hDigest : p.digest = .ok (Blake2b.sum256 p.body) := by
    rw [digest, hCanonical]
    rfl
  refine ⟨_, hDigest, ?_, fun rest => ?_, fun pre hPrefix hCut => ?_⟩
  · rw [List.drop_left' (length_preamble _)]
  · have hEnough : ¬ (p.body ++ rest).length < p.body.length := by simp
    rw [List.append_assoc, ofFile_preamble hLength, if_neg hEnough, List.take_left, List.drop_left,
      p.ofBody?_body hSize hLength hArgs hUtf8, Option.elim_some]
  · exact ofFile_cut hLength rfl hPrefix hCut

/-- A plan with a list of arguments, an empty one and none. -/
def mixedPlan : Plan :=
  ⟨some [⟨"cc", "a.c", "mode", "fast", some ["-O2", "é"]⟩, ⟨"cc", "b.c", [], [], some []⟩,
    ⟨"ld", [], [], "x", none⟩]⟩

/-- Commands with and without choice, label and arguments in one plan, an additional byte after the
file, and one that is missing. -/
theorem ofFile_toFile_mixedPlan :
    (∀ c ∈ mixedPlan.toList, ∀ t ∈ c.texts, t.isUtf8 = true) ∧
      (∀ c ∈ mixedPlan.toList, (c.args.getD []).length ≤ 131072) ∧
      ∃ f digest, mixedPlan.toFile = .ok f ∧ mixedPlan.digest = .ok digest ∧
        ofFile (f ++ [0]) = .ok ⟨mixedPlan, digest, [0]⟩ ∧ ∃ e, ofFile (f.take 10) = .error e := by
  have hUtf8 : ∀ c ∈ mixedPlan.toList, ∀ t ∈ c.texts, t.isUtf8 = true := by decide
  have hArgs : ∀ c ∈ mixedPlan.toList, (c.args.getD []).length ≤ 131072 := by decide
  have hFile : mixedPlan.toFile = .ok (preamble mixedPlan.body.length ++ mixedPlan.body) := rfl
  obtain ⟨digest, hDigest, -, hRead, hCut⟩ := ofFile_toFile hFile hUtf8 hArgs
  refine ⟨hUtf8, hArgs, _, digest, hFile, hDigest, hRead [0], hCut _ (List.take_prefix _ _) ?_⟩
  exact fun hEq => absurd (congrArg List.length hEq) (by decide)

end Plan

end Runsheet
